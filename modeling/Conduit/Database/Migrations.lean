import Conduit.Base.Gregorian
import Conduit.Base.TSys
import Conduit.Database.Ddl
import Conduit.Database.Policy
import Mathlib

/-!
# Migrations

Any number of replicas, each of a release of its own, start on one database:
`run_postgres_migration_catalog` brings the schema up to the release, and
`verify_postgres_schema_current` refuses to start on any other schema where
automatic migration is disabled. Each statement that reaches the database is
an action, and so are a lost connection and a commit whose answer is lost.

Releases only ever append migrations, so they are the starts of one catalogue.
A database is `Built k` when exactly the first `k` migrations were executed on
it. Between the lock and the commit, the view of a transaction is built from
the committed database, as nobody else commits meanwhile.
-/

namespace Conduit.Database

open Base

/-! ## Catalogues -/

structure EmbeddedMigration where
  version : String
  sql : String

structure PreparedMigration where
  version : String
  statements : List String

def EmbeddedMigration.prepare (migration : EmbeddedMigration) : PreparedMigration :=
  ⟨migration.version, splitDdlStatements migration.sql⟩

def preparePostgresMigrationCatalog (migrations : List EmbeddedMigration) :
    Except MigrationPlanError (List PreparedMigration) := do
  validatePlanNonDestructive
    { dialect := .postgres
      steps := migrations.map fun migration => ⟨migration.version, .postgres, migration.sql⟩ }
  return migrations.map EmbeddedMigration.prepare

inductive MigrationOutcome
  | disabled
  | alreadyApplied (version : String)
  | applied (version : String)
  deriving DecidableEq, Repr

inductive MigrationRunnerError
  | planRejected (error : MigrationPlanError)
  | schemaVersion (message : String)
  | database

/-! ## The database and its clients -/

/-- The tracking table, whose rows are in the order of their insertion, and
all statements of migrations that were ever executed. -/
structure Schema where
  tracked : Bool := false
  versions : List String := []
  executed : List String := []

/-- How far the start of a replica is; its release is a number of migrations.
From `locked` to `executing` it has the lock and its own view. -/
inductive Phase
  | idle
  | waiting (release : Nat) (migrations : List PreparedMigration)
  | locked (release : Nat) (migrations : List PreparedMigration) (view : Schema)
  | looping (release : Nat) (migrations : List PreparedMigration) (view : Schema)
      (lastApplied : Option String)
  | executing (release : Nat) (version : String) (statements : List String)
      (migrations : List PreparedMigration) (view : Schema) (lastApplied : Option String)
  | checking (release : Nat)
  | listing (release : Nat)
  | finished (release : Nat) (outcome : MigrationOutcome)
  | failed (error : MigrationRunnerError)

def Phase.holds : Phase → Bool
  | locked .. | looping .. | executing .. => true
  | _ => false

/-- A replica may start again. -/
def Phase.ended : Phase → Bool
  | idle | finished .. | failed _ => true
  | _ => false

structure Cluster where
  database : Schema := {}
  lock : Option Nat := none
  phases : Nat → Phase := fun _ => .idle

/-- What comes back for a statement. A commit may take effect although its
answer is lost. -/
inductive Reply
  | ok
  | error
  | lost

inductive Action
  | start (task release : Nat) (disableAutoMigration : Bool)
  | statement (task : Nat) (reply : Reply)

section Runner

variable (catalog : List EmbeddedMigration)

/-- `EMBEDDED_MIGRATIONS` of a release. -/
def embedded (release : Nat) : List EmbeddedMigration := catalog.take release

/-- `LATEST_SCHEMA_VERSION` of a release. -/
def latestSchemaVersion (release : Nat) : String :=
  ((embedded catalog release).getLast?.map EmbeddedMigration.version).getD ""

/-- What `run_migrations_postgres` makes of the last version applied. -/
def outcomeOf (release : Nat) : Option String → MigrationOutcome
  | some version => .applied version
  | none => .alreadyApplied (latestSchemaVersion catalog release)

/-- `verify_postgres_schema_current`, once the versions are read. -/
def verify (release : Nat) (applied : List String) : Phase :=
  let expected := latestSchemaVersion catalog release
  let required := (embedded catalog release).map EmbeddedMigration.version
  let missing := required.filter fun version => version ∉ applied
  if applied.max? ≠ some expected ∨ missing ≠ [] then
    .failed (.schemaVersion ("automatic migration is disabled, but expected latest " ++ expected ++
      " with all embedded migrations applied; latest recorded is " ++ applied.max?.getD "none" ++
      ", missing [" ++ ", ".intercalate missing ++ "]"))
  else .finished release .disabled

namespace Cluster

def setPhase (task : Nat) (phase : Phase) (s : Cluster) : Cluster :=
  { s with phases := Function.update s.phases task phase }

/-- The connection of a replica is gone, and its transaction and lock with it. -/
def abort (task : Nat) (error : MigrationRunnerError) (s : Cluster) : Cluster :=
  { s with
    lock := if s.lock = some task then none else s.lock
    phases := Function.update s.phases task (.failed error) }

def commit (task : Nat) (view : Schema) (phase : Phase) (s : Cluster) : Cluster :=
  { s with
    database := view
    lock := none
    phases := Function.update s.phases task phase }

/-- A replica starts: `migrate_postgres_with_flag` up to its first statement. -/
def start (task release : Nat) (disableAutoMigration : Bool) (s : Cluster) : Cluster :=
  if disableAutoMigration then s.setPhase task (.checking release)
  else
    match preparePostgresMigrationCatalog (embedded catalog release) with
    | .error e => s.setPhase task (.failed (.planRejected e))
    | .ok migrations => s.setPhase task (.waiting release migrations)

/-- The next statement of a replica is answered. -/
def proceed (task : Nat) (s : Cluster) : Cluster :=
  match s.phases task with
  | .waiting release migrations =>
      -- `pg_advisory_xact_lock` blocks while another transaction has the lock
      if s.lock = none then
        { s.setPhase task (.locked release migrations s.database) with lock := some task }
      else s
  | .locked release migrations view =>
      s.setPhase task (.looping release migrations { view with tracked := true } none)
  | .looping release [] view lastApplied =>
      s.commit task view (.finished release (outcomeOf catalog release lastApplied))
  | .looping release (migration :: migrations) view lastApplied =>
      if migration.version ∈ view.versions then
        s.setPhase task (.looping release migrations view lastApplied)
      else
        s.setPhase task
          (.executing release migration.version migration.statements migrations view lastApplied)
  | .executing release version (statement :: statements) migrations view lastApplied =>
      s.setPhase task (.executing release version statements migrations
        { view with executed := view.executed ++ [statement] } lastApplied)
  | .executing release version [] migrations view _ =>
      -- the version is the primary key of the tracking table
      if version ∈ view.versions then s.abort task .database
      else
        s.setPhase task (.looping release migrations
          { view with versions := view.versions ++ [version] } (some version))
  | .checking release =>
      if s.database.tracked then s.setPhase task (.listing release)
      else
        s.setPhase task (.failed (.schemaVersion
          ("automatic migration is disabled, but schema_migrations is missing; expected " ++
            latestSchemaVersion catalog release)))
  | .listing release => s.setPhase task (verify catalog release s.database.versions)
  | _ => s

def step (s : Cluster) : Action → Cluster
  | .start task release disableAutoMigration =>
      if (s.phases task).ended ∧ 0 < release ∧ release ≤ catalog.length then
        s.start catalog task release disableAutoMigration
      else s
  | .statement task reply =>
      if (s.phases task).ended then s
      else
        match reply, s.phases task with
        | .ok, _ => s.proceed catalog task
        | .lost, .looping _ [] view _ => s.commit task view (.failed .database)
        | _, _ => s.abort task .database

def system : TSys Cluster Action where
  init := {}
  step := step catalog

end Cluster

end Runner

/-! ## Built databases -/

section Invariant

variable (catalog : List EmbeddedMigration)

def versionsOf (migrations : List EmbeddedMigration) : List String :=
  migrations.map EmbeddedMigration.version

def statementsOf (migrations : List EmbeddedMigration) : List String :=
  migrations.flatMap fun migration => splitDdlStatements migration.sql

/-- The statements of the first `k` migrations were executed, each once and
in order, and the tracking table lists these migrations. -/
structure Built (k : Nat) (database : Schema) : Prop where
  versions : database.versions = versionsOf (catalog.take k)
  executed : database.executed = statementsOf (catalog.take k)
  tracked : 0 < k → database.tracked = true

/-- The versions grow along the catalogue. -/
def Ordered : Prop := (versionsOf catalog).Pairwise (· < ·)

variable {catalog}

theorem Built.track {k : Nat} {database : Schema} (h : Built catalog k database) :
    Built catalog k { database with tracked := true } := ⟨h.versions, h.executed, fun _ => rfl⟩

theorem versionsOf_take (k : Nat) : versionsOf (catalog.take k) = (versionsOf catalog).take k :=
  List.map_take

/-- Among the first `k` versions are those of the first `k` migrations. -/
theorem Ordered.mem_take_iff (h : Ordered catalog) {i k : Nat} {migration : EmbeddedMigration}
    (hi : catalog[i]? = some migration) :
    migration.version ∈ versionsOf (catalog.take k) ↔ i < k := by
  have hnodup : (versionsOf catalog).Nodup := h.imp fun hlt => hlt.ne
  have hversion : (versionsOf catalog)[i]? = some migration.version := by simp [versionsOf, hi]
  rw [versionsOf_take]
  constructor
  · intro hmem
    obtain ⟨j, hj⟩ := List.mem_iff_getElem?.mp hmem
    rw [List.getElem?_take] at hj
    by_cases hjk : j < k
    · rw [if_pos hjk] at hj
      have hlength := (List.getElem?_eq_some_iff.mp hversion).1
      have hsame := (List.getElem?_inj hlength hnodup).mp (hversion.trans hj.symm)
      omega
    · rw [if_neg hjk] at hj
      cases hj
  · intro hik
    refine List.mem_iff_getElem?.mpr ⟨i, ?_⟩
    rw [List.getElem?_take, if_pos hik, hversion]

theorem take_succ {i : Nat} {migration : EmbeddedMigration} (hi : catalog[i]? = some migration) :
    catalog.take (i + 1) = catalog.take i ++ [migration] := by
  rw [List.take_add_one, hi]
  rfl

theorem versionsOf_succ {i : Nat} {migration : EmbeddedMigration}
    (hi : catalog[i]? = some migration) :
    versionsOf (catalog.take (i + 1)) = versionsOf (catalog.take i) ++ [migration.version] := by
  rw [take_succ hi]
  simp [versionsOf]

theorem statementsOf_succ {i : Nat} {migration : EmbeddedMigration}
    (hi : catalog[i]? = some migration) :
    statementsOf (catalog.take (i + 1)) =
      statementsOf (catalog.take i) ++ splitDdlStatements migration.sql := by
  rw [take_succ hi]
  simp [statementsOf]

/-- The migrations of a release that are still to be looked at. -/
theorem drop_prepared {release i : Nat} {migration : PreparedMigration}
    {migrations : List PreparedMigration}
    (h : migration :: migrations =
      ((embedded catalog release).map EmbeddedMigration.prepare).drop i) :
    i < release ∧ ∃ source, catalog[i]? = some source ∧ migration = source.prepare ∧
      migrations = ((embedded catalog release).map EmbeddedMigration.prepare).drop (i + 1) := by
  have hhead : (((embedded catalog release).map EmbeddedMigration.prepare).drop i)[0]? =
      some migration := by
    rw [← h]
    rfl
  have htail := congrArg List.tail h
  rw [List.getElem?_drop, List.getElem?_map, Nat.add_zero] at hhead
  obtain ⟨source, hsource, hprepare⟩ := Option.map_eq_some_iff.mp hhead
  unfold embedded at hsource
  rw [List.getElem?_take] at hsource
  by_cases hi : i < release
  · rw [if_pos hi] at hsource
    refine ⟨hi, source, hsource, hprepare.symm, ?_⟩
    rw [List.tail_drop] at htail
    exact htail
  · rw [if_neg hi] at hsource
    cases hsource

/-! ## What a replica knows -/

/-- The last version that a transaction applied, once it has looked at `i`
migrations of a database that had `k`. -/
def lastVersion (catalog : List EmbeddedMigration) (k i : Nat) : Option String :=
  if k < i then catalog[i - 1]?.map EmbeddedMigration.version else none

/-- Where a replica is, on a database built with `k` migrations. -/
def Consistent (catalog : List EmbeddedMigration) (k : Nat) : Phase → Prop
  | .waiting release migrations =>
      (0 < release ∧ release ≤ catalog.length) ∧
        migrations = (embedded catalog release).map EmbeddedMigration.prepare
  | .locked release migrations view =>
      (0 < release ∧ release ≤ catalog.length) ∧
        migrations = (embedded catalog release).map EmbeddedMigration.prepare ∧ Built catalog k view
  | .looping release migrations view lastApplied =>
      (0 < release ∧ release ≤ catalog.length) ∧ ∃ i ≤ release,
        migrations = ((embedded catalog release).map EmbeddedMigration.prepare).drop i ∧
          Built catalog (max k i) view ∧ view.tracked = true ∧
          lastApplied = lastVersion catalog k i
  | .executing release version statements migrations view _ =>
      (0 < release ∧ release ≤ catalog.length) ∧ ∃ i source, k ≤ i ∧ i < release ∧
        catalog[i]? = some source ∧ version = source.version ∧
          migrations = ((embedded catalog release).map EmbeddedMigration.prepare).drop (i + 1) ∧
          view.versions = versionsOf (catalog.take i) ∧ view.tracked = true ∧
          ∃ done, view.executed = statementsOf (catalog.take i) ++ done ∧
            done ++ statements = splitDdlStatements source.sql
  | .checking release | .listing release => 0 < release ∧ release ≤ catalog.length
  | .finished release outcome =>
      release ≤ k ∧
        (outcome = .disabled ∨ outcome = .applied (latestSchemaVersion catalog release) ∨
        outcome = .alreadyApplied (latestSchemaVersion catalog release))
  | _ => True

/-- The invariant: the database is built, only the holder of the lock has a
view, and every replica's phase fits. -/
structure Sound (catalog : List EmbeddedMigration) (k : Nat) (s : Cluster) : Prop where
  bound : k ≤ catalog.length
  built : Built catalog k s.database
  holder : ∀ task, (s.phases task).holds = true → s.lock = some task
  consistent : ∀ task, Consistent catalog k (s.phases task)

/-- Without a view, a phase fits a database of more migrations as well. -/
theorem Consistent.mono {k k' : Nat} {phase : Phase} (h : Consistent catalog k phase)
    (hphase : phase.holds = false) (hle : k ≤ k') : Consistent catalog k' phase := by
  cases phase with
  | finished release outcome => exact ⟨Nat.le_trans h.1 hle, h.2⟩
  | locked release migrations view => cases hphase
  | looping release migrations view lastApplied => cases hphase
  | executing release version statements migrations view lastApplied => cases hphase
  | idle => exact h
  | waiting release migrations => exact h
  | checking release => exact h
  | listing release => exact h
  | failed error => exact h

namespace Sound

variable {s : Cluster} {k task : Nat} {phase : Phase}

theorem setPhase (h : Sound catalog k s) (hconsistent : Consistent catalog k phase)
    (hholds : phase.holds = true → s.lock = some task) : Sound catalog k (s.setPhase task phase) :=
    by
  refine ⟨h.bound, h.built, ?_, ?_⟩
  · intro other hother
    by_cases heq : other = task
    · subst heq
      exact hholds (by simpa [Cluster.setPhase] using hother)
    · exact h.holder other (by simpa [Cluster.setPhase, heq] using hother)
  · intro other
    by_cases heq : other = task
    · subst heq
      simpa [Cluster.setPhase] using hconsistent
    · simpa [Cluster.setPhase, heq] using h.consistent other

theorem abort (h : Sound catalog k s) (error : MigrationRunnerError) :
    Sound catalog k (s.abort task error) := by
  refine ⟨h.bound, h.built, ?_, ?_⟩
  · intro other hother
    by_cases heq : other = task
    · subst heq
      simp [Cluster.abort, Phase.holds] at hother
    · have hlock := h.holder other (by simpa [Cluster.abort, heq] using hother)
      simp [Cluster.abort, hlock, heq]
  · intro other
    by_cases heq : other = task
    · subst heq
      simp [Cluster.abort, Consistent]
    · simpa [Cluster.abort, heq] using h.consistent other

/-- A commit by the holder of the lock: nobody else has a view. -/
theorem commit (h : Sound catalog k s) {k' : Nat} {view : Schema}
    (hbefore : (s.phases task).holds = true) (hle : k ≤ k') (hbound : k' ≤ catalog.length)
    (hbuilt : Built catalog k' view) (hafter : phase.holds = false)
    (hconsistent : Consistent catalog k' phase) : Sound catalog k' (s.commit task view phase) := by
  have hlock := h.holder task hbefore
  have hothers : ∀ other, other ≠ task → (s.phases other).holds = false := by
    intro other hne
    rw [Bool.eq_false_iff]
    intro hother
    have hsame := h.holder other hother
    rw [hlock, Option.some.injEq] at hsame
    exact hne hsame.symm
  refine ⟨hbound, hbuilt, ?_, ?_⟩
  · intro other hother
    by_cases heq : other = task
    · simp [Cluster.commit, heq, hafter] at hother
    · simp [Cluster.commit, heq, hothers other heq] at hother
  · intro other
    by_cases heq : other = task
    · subst heq
      simpa [Cluster.commit] using hconsistent
    · have hother := (h.consistent other).mono (hothers other heq) hle
      simpa [Cluster.commit, heq] using hother

/-- The lock is granted; the view is the committed database. -/
theorem acquire (h : Sound catalog k s) (hlock : s.lock = none) {release : Nat}
    {migrations : List PreparedMigration} (hphase : s.phases task = .waiting release migrations) :
    Sound catalog k
      { s.setPhase task (.locked release migrations s.database) with lock := some task } := by
  have hnone : ∀ other, (s.phases other).holds = false := by
    intro other
    rw [Bool.eq_false_iff]
    intro hother
    have hsame := h.holder other hother
    simp [hlock] at hsame
  have hwaiting : Consistent catalog k (.waiting release migrations) := hphase ▸ h.consistent task
  refine ⟨h.bound, h.built, ?_, ?_⟩
  · intro other hother
    by_cases heq : other = task
    · rw [heq]
    · simp [Cluster.setPhase, heq, hnone other] at hother
  · intro other
    by_cases heq : other = task
    · subst heq
      have hlocked : Consistent catalog k (.locked release migrations s.database) :=
        ⟨hwaiting.1, hwaiting.2, h.built⟩
      simpa [Cluster.setPhase] using hlocked
    · simpa [Cluster.setPhase, heq] using h.consistent other

end Sound

/-! ## Steps -/

theorem latestSchemaVersion_eq {release : Nat} {source : EmbeddedMigration} (hpos : 0 < release)
    (h : catalog[release - 1]? = some source) :
    latestSchemaVersion catalog release = source.version := by
  have hlength := (List.getElem?_eq_some_iff.mp h).1
  have hlast : (catalog.take release).getLast? = some source := by
    rw [List.getLast?_eq_getElem?, List.length_take, Nat.min_eq_left (by omega),
      List.getElem?_take, if_pos (by omega), h]
  unfold latestSchemaVersion embedded
  rw [hlast]
  rfl

/-- A transaction that has looked at all migrations of its release answers
with the release's latest version. -/
theorem outcomeOf_lastVersion {k release : Nat} (hpos : 0 < release)
    (hle : release ≤ catalog.length) :
    outcomeOf catalog release (lastVersion catalog k release) =
        .applied (latestSchemaVersion catalog release) ∨
      outcomeOf catalog release (lastVersion catalog k release) =
        .alreadyApplied (latestSchemaVersion catalog release) := by
  obtain ⟨source, hsource⟩ : ∃ source, catalog[release - 1]? = some source :=
    ⟨_, List.getElem?_eq_getElem (by omega)⟩
  unfold lastVersion
  by_cases hk : k < release
  · left
    rw [if_pos hk, hsource, latestSchemaVersion_eq hpos hsource]
    rfl
  · right
    rw [if_neg hk]
    rfl

theorem prepared_drop_nil {release i : Nat} (hle : release ≤ catalog.length)
    (h : ([] : List PreparedMigration) =
      ((embedded catalog release).map EmbeddedMigration.prepare).drop i) : release ≤ i := by
  have hlength := congrArg List.length h
  simp only [List.length_nil, List.length_drop, List.length_map, embedded, List.length_take,
    Nat.min_eq_left hle] at hlength
  omega

namespace Sound

variable {s : Cluster} {k : Nat}

/-- The loop looks at its next migration. -/
theorem examine (h : Sound catalog k s) (hordered : Ordered catalog) {task release : Nat}
    {migration : PreparedMigration} {migrations : List PreparedMigration} {view : Schema}
    {lastApplied : Option String}
    (hphase : s.phases task = .looping release (migration :: migrations) view lastApplied) :
    Sound catalog k (s.setPhase task
      (if migration.version ∈ view.versions then .looping release migrations view lastApplied
      else .executing release migration.version migration.statements migrations view
        lastApplied)) := by
  have hlooping : Consistent catalog k _ := hphase ▸ h.consistent task
  obtain ⟨hrelease, i, hi, hrest, hview, htracked, hlast⟩ := hlooping
  obtain ⟨hlt, source, hsource, rfl, hnext⟩ := drop_prepared hrest
  have hholds := h.holder task (by rw [hphase]; rfl)
  -- the tracking table lists the migration if the database was built with it
  have hmem : source.prepare.version ∈ view.versions ↔ i < k := by
    have htake := hordered.mem_take_iff (k := max k i) hsource
    rw [hview.versions]
    exact htake.trans (by omega)
  by_cases hik : i < k
  · rw [if_pos (hmem.mpr hik)]
    refine h.setPhase ⟨hrelease, i + 1, hlt, hnext, ?_, htracked, ?_⟩ fun _ => hholds
    · rwa [Nat.max_eq_left (by omega)] at hview ⊢
    · rw [hlast]
      unfold lastVersion
      rw [if_neg (by omega), if_neg (by omega)]
  · rw [if_neg (mt hmem.mp hik)]
    rw [Nat.max_eq_right (by omega)] at hview
    refine h.setPhase ⟨hrelease, i, source, by omega, hlt, hsource, rfl, hnext, hview.versions,
      htracked, [], ?_, rfl⟩ fun _ => hholds
    rw [hview.executed, List.append_nil]

/-- A statement of a migration is executed. -/
theorem execute (h : Sound catalog k s) {task release : Nat} {version statement : String}
    {statements : List String} {migrations : List PreparedMigration} {view : Schema}
    {lastApplied : Option String}
    (hphase : s.phases task =
      .executing release version (statement :: statements) migrations view lastApplied) :
    Sound catalog k (s.setPhase task (.executing release version statements migrations
      { view with executed := view.executed ++ [statement] } lastApplied)) := by
  have hexecuting : Consistent catalog k _ := hphase ▸ h.consistent task
  obtain ⟨hrelease, i, source, hk, hi, hsource, hversion, hrest, hversions, htracked, done,
    hexecuted, hstatements⟩ := hexecuting
  refine h.setPhase ⟨hrelease, i, source, hk, hi, hsource, hversion, hrest, hversions, htracked,
    done ++ [statement], ?_, ?_⟩ fun _ => h.holder task (by rw [hphase]; rfl)
  · rw [hexecuted, List.append_assoc]
  · rw [List.append_assoc, List.singleton_append, hstatements]

/-- A migration is recorded behind its last statement. -/
theorem record (h : Sound catalog k s) (hordered : Ordered catalog) {task release : Nat}
    {version : String} {migrations : List PreparedMigration} {view : Schema}
    {lastApplied : Option String}
    (hphase : s.phases task = .executing release version [] migrations view lastApplied) :
    version ∉ view.versions ∧
      Sound catalog k (s.setPhase task (.looping release migrations
        { view with versions := view.versions ++ [version] } (some version))) := by
  have hexecuting : Consistent catalog k _ := hphase ▸ h.consistent task
  obtain ⟨hrelease, i, source, hk, hi, hsource, rfl, hrest, hversions, htracked, done,
    hexecuted, hstatements⟩ := hexecuting
  rw [List.append_nil] at hstatements
  constructor
  · rw [hversions, hordered.mem_take_iff hsource]
    exact Nat.lt_irrefl i
  · refine h.setPhase ⟨hrelease, i + 1, hi, hrest, ⟨?_, ?_, fun _ => htracked⟩, htracked, ?_⟩
      fun _ => h.holder task (by rw [hphase]; rfl)
    · rw [Nat.max_eq_right (by omega), versionsOf_succ hsource, hversions]
    · rw [Nat.max_eq_right (by omega), statementsOf_succ hsource, hexecuted, hstatements]
    · unfold lastVersion
      rw [if_pos (by omega), Nat.add_sub_cancel, hsource]
      rfl

/-- A commit takes effect, whether or not its answer arrives. -/
theorem commitLoop (h : Sound catalog k s) {task release : Nat} {view : Schema}
    {lastApplied : Option String} {phase : Phase}
    (hphase : s.phases task = .looping release [] view lastApplied)
    (hafter : phase = .failed .database ∨
      phase = .finished release (outcomeOf catalog release lastApplied)) :
    Sound catalog (max k release) (s.commit task view phase) := by
  have hlooping : Consistent catalog k _ := hphase ▸ h.consistent task
  obtain ⟨⟨hpos, hle⟩, i, hi, hrest, hview, _, hlast⟩ := hlooping
  have hend : i = release := Nat.le_antisymm hi (prepared_drop_nil hle hrest)
  subst hend
  have hbound : max k i ≤ catalog.length := Nat.max_le.mpr ⟨h.bound, hle⟩
  have hholds : (s.phases task).holds = true := by
    rw [hphase]
    rfl
  rcases hafter with rfl | rfl
  · exact h.commit hholds (Nat.le_max_left k i) hbound hview rfl trivial
  · refine h.commit hholds (Nat.le_max_left k i) hbound hview rfl ⟨Nat.le_max_right k i, .inr ?_⟩
    rw [hlast]
    exact outcomeOf_lastVersion hpos hle

end Sound

/-! ## Verification -/

/-- The first `k` versions, in ascending order, have the `k`-th as their
maximum. -/
theorem Ordered.max?_take (h : Ordered catalog) {k : Nat} {source : EmbeddedMigration}
    (hsource : catalog[k]? = some source) :
    (versionsOf (catalog.take (k + 1))).max? = some source.version := by
  refine List.max?_eq_some_iff.mpr ⟨?_, ?_⟩
  · rw [versionsOf_succ hsource]
    exact List.mem_append_right _ (List.mem_singleton.mpr rfl)
  · intro version hversion
    rw [versionsOf_succ hsource] at hversion
    rcases List.mem_append.mp hversion with hbefore | hlast
    · have hsorted : (versionsOf (catalog.take (k + 1))).Pairwise (· < ·) := by
        rw [versionsOf_take]
        exact h.sublist (List.take_sublist _ _)
      rw [versionsOf_succ hsource] at hsorted
      have hcross := (List.pairwise_append.mp hsorted).2.2 version hbefore
      exact (hcross _ (List.mem_singleton.mpr rfl)).le
    · exact (List.mem_singleton.mp hlast).le

/-- A release that may not migrate starts on the schema of its own
migrations, not on an older or a newer one. -/
theorem verify_iff (hordered : Ordered catalog) {k release : Nat} (hk : k ≤ catalog.length)
    (hpos : 0 < release) (hrelease : release ≤ catalog.length) :
    verify catalog release (versionsOf (catalog.take k)) = .finished release .disabled ↔
      k = release := by
  obtain ⟨latest, hlatest⟩ : ∃ latest, catalog[release - 1]? = some latest :=
    ⟨_, List.getElem?_eq_getElem (by omega)⟩
  unfold verify
  dsimp only
  rw [latestSchemaVersion_eq hpos hlatest]
  constructor
  · intro h
    by_contra hne
    -- the latest version is that of another migration, or there is none
    have hmax : (versionsOf (catalog.take k)).max? ≠ some latest.version := by
      intro hmax
      rcases Nat.eq_zero_or_pos k with rfl | hkpos
      · simp [versionsOf] at hmax
      · obtain ⟨last, hlast⟩ : ∃ last, catalog[k - 1]? = some last :=
          ⟨_, List.getElem?_eq_getElem (by omega)⟩
        have hknown := hordered.max?_take hlast
        rw [Nat.sub_add_cancel hkpos, hmax, Option.some.injEq] at hknown
        have hin := hordered.mem_take_iff (k := k) hlatest
        have hbelow := hordered.mem_take_iff (k := k - 1) hlatest
        have hself := hordered.mem_take_iff (k := k) hlast
        have hnot := hordered.mem_take_iff (k := k - 1) hlast
        rw [hknown] at hin hbelow
        have hsame := hin.symm.trans hself
        have hlower := hbelow.symm.trans hnot
        omega
    rw [if_pos (.inl hmax)] at h
    cases h
  · rintro rfl
    have hmax := hordered.max?_take hlatest
    rw [Nat.sub_add_cancel hpos] at hmax
    rw [if_neg]
    rintro (hother | hmissing)
    · exact hother hmax
    · refine hmissing (List.filter_eq_nil_iff.mpr ?_)
      intro version hversion
      have happlied : version ∈ versionsOf (catalog.take k) := hversion
      simpa using happlied

theorem verify_cases (catalog : List EmbeddedMigration) (release : Nat) (applied : List String) :
    (∃ e, verify catalog release applied = .failed e) ∨
      verify catalog release applied = .finished release .disabled := by
  unfold verify
  dsimp only
  split
  · exact .inl ⟨_, rfl⟩
  · exact .inr rfl

/-! ## Runs -/

namespace Sound

variable {s : Cluster} {k : Nat}

theorem start (h : Sound catalog k s) {task release : Nat}
    (hrelease : 0 < release ∧ release ≤ catalog.length) (disableAutoMigration : Bool) :
    Sound catalog k (s.start catalog task release disableAutoMigration) := by
  unfold Cluster.start
  by_cases hdisabled : disableAutoMigration = true
  · rw [if_pos hdisabled]
    refine h.setPhase hrelease ?_
    intro hholds
    cases hholds
  · rw [if_neg hdisabled]
    cases hprepare : preparePostgresMigrationCatalog (embedded catalog release) with
    | error e =>
        refine h.setPhase trivial ?_
        intro hholds
        cases hholds
    | ok migrations =>
        have hmigrations : migrations = (embedded catalog release).map EmbeddedMigration.prepare :=
          by
          unfold preparePostgresMigrationCatalog at hprepare
          cases hvalid : validatePlanNonDestructive
              { dialect := .postgres
                steps := (embedded catalog release).map fun migration =>
                  ⟨migration.version, .postgres, migration.sql⟩ } with
          | error e => simp [hvalid, bind, Except.bind] at hprepare
          | ok u => simpa [hvalid, bind, Except.bind, pure, Except.pure, eq_comm] using hprepare
        refine h.setPhase ⟨hrelease, hmigrations⟩ ?_
        intro hholds
        cases hholds

theorem proceed (h : Sound catalog k s) (hordered : Ordered catalog) (task : Nat) :
    ∃ k', k ≤ k' ∧ Sound catalog k' (s.proceed catalog task) := by
  unfold Cluster.proceed
  cases hphase : s.phases task with
  | idle => exact ⟨k, Nat.le_refl k, h⟩
  | finished release outcome => exact ⟨k, Nat.le_refl k, h⟩
  | failed error => exact ⟨k, Nat.le_refl k, h⟩
  | waiting release migrations =>
      refine ⟨k, Nat.le_refl k, ?_⟩
      dsimp only
      by_cases hlock : s.lock = none
      · rw [if_pos hlock]
        exact h.acquire hlock hphase
      · rwa [if_neg hlock]
  | locked release migrations view =>
      have hlocked : Consistent catalog k _ := hphase ▸ h.consistent task
      obtain ⟨hrelease, hmigrations, hview⟩ := hlocked
      refine ⟨k, Nat.le_refl k, h.setPhase
        ⟨hrelease, 0, Nat.zero_le release, hmigrations, ?_, rfl, rfl⟩ fun _ => h.holder task
          (by rw [hphase]; rfl)⟩
      rw [Nat.max_eq_left (Nat.zero_le k)]
      exact hview.track
  | looping release migrations view lastApplied =>
      cases migrations with
      | nil => exact ⟨max k release, Nat.le_max_left k release, h.commitLoop hphase (.inr rfl)⟩
      | cons migration migrations =>
          have hexamined := h.examine hordered hphase
          refine ⟨k, Nat.le_refl k, ?_⟩
          dsimp only
          by_cases hmem : migration.version ∈ view.versions
          · rw [if_pos hmem] at hexamined ⊢
            exact hexamined
          · rw [if_neg hmem] at hexamined ⊢
            exact hexamined
  | executing release version statements migrations view lastApplied =>
      cases statements with
      | nil =>
          obtain ⟨hnew, hrecorded⟩ := h.record hordered hphase
          refine ⟨k, Nat.le_refl k, ?_⟩
          dsimp only
          rwa [if_neg hnew]
      | cons statement statements => exact ⟨k, Nat.le_refl k, h.execute hphase⟩
  | checking release =>
      have hrelease : Consistent catalog k (.checking release) := hphase ▸ h.consistent task
      refine ⟨k, Nat.le_refl k, ?_⟩
      dsimp only
      by_cases htracked : s.database.tracked = true
      · rw [if_pos htracked]
        refine h.setPhase hrelease ?_
        intro hholds
        cases hholds
      · rw [if_neg htracked]
        refine h.setPhase trivial ?_
        intro hholds
        cases hholds
  | listing release =>
      have hrelease : Consistent catalog k (.listing release) := hphase ▸ h.consistent task
      refine ⟨k, Nat.le_refl k, ?_⟩
      dsimp only
      rcases verify_cases catalog release s.database.versions with ⟨e, hfailed⟩ | hverified
      · rw [hfailed]
        refine h.setPhase trivial ?_
        intro hholds
        cases hholds
      · have hsame := hverified
        rw [h.built.versions, verify_iff hordered h.bound hrelease.1 hrelease.2] at hsame
        rw [hverified]
        refine h.setPhase ⟨hsame.ge, .inl rfl⟩ ?_
        intro hholds
        cases hholds

/-- What one step keeps, with a number of migrations that only grows. -/
theorem step (h : Sound catalog k s) (hordered : Ordered catalog) (a : Action) :
    ∃ k', k ≤ k' ∧ Sound catalog k' (s.step catalog a) := by
  cases a with
  | start task release disableAutoMigration =>
      refine ⟨k, Nat.le_refl k, ?_⟩
      unfold Cluster.step
      dsimp only
      by_cases hmay : (s.phases task).ended = true ∧ 0 < release ∧ release ≤ catalog.length
      · rw [if_pos hmay]
        exact h.start hmay.2 disableAutoMigration
      · rwa [if_neg hmay]
  | statement task reply =>
      unfold Cluster.step
      dsimp only
      by_cases hended : (s.phases task).ended = true
      · rw [if_pos hended]
        exact ⟨k, Nat.le_refl k, h⟩
      · rw [if_neg hended]
        split
        · exact h.proceed hordered task
        · rename_i release view lastApplied hphase
          exact ⟨max k release, Nat.le_max_left k release, h.commitLoop hphase (.inl rfl)⟩
        · exact ⟨k, Nat.le_refl k, h.abort .database⟩

theorem run (hordered : Ordered catalog) (as : List Action) : ∀ (k : Nat) (s : Cluster),
    Sound catalog k s → ∃ k', k ≤ k' ∧ Sound catalog k' ((Cluster.system catalog).run s as) := by
  induction as with
  | nil => exact fun k s h => ⟨k, Nat.le_refl k, h⟩
  | cons a as ih =>
      intro k s h
      obtain ⟨k₁, hle₁, h₁⟩ := h.step hordered a
      obtain ⟨k₂, hle₂, h₂⟩ := ih k₁ _ h₁
      exact ⟨k₂, Nat.le_trans hle₁ hle₂, h₂⟩

end Sound

theorem sound_init (catalog : List EmbeddedMigration) : Sound catalog 0 {} where
  bound := Nat.zero_le _
  built := ⟨rfl, rfl, fun h => absurd h (Nat.lt_irrefl 0)⟩
  holder _ h := by cases h
  consistent _ := trivial

/-- At any time the database is what the first migrations of the catalogue
make of it, each executed once and in order, however many replicas of
whatever releases start on it, one after the other or at once, and wherever
they are cut off. Migrations are never taken back; a replica that has started
finds its own among them; and one that may not migrate starts exactly on the
schema of its own release. -/
theorem migrations_applied_once (hordered : Ordered catalog) (as bs : List Action) :
    let s := (Cluster.system catalog).run {} as
    let s' := (Cluster.system catalog).run {} (as ++ bs)
    ∃ k k', k ≤ k' ∧ k' ≤ catalog.length ∧ Built catalog k s.database ∧
      Built catalog k' s'.database ∧
      (∀ task release outcome, s.phases task = .finished release outcome → release ≤ k) ∧
      ∀ task release, s.phases task = .listing release →
        ((s.step catalog (.statement task .ok)).phases task = .finished release .disabled ↔
          k = release) := by
  obtain ⟨k, _, h⟩ := Sound.run hordered as 0 {} (sound_init catalog)
  obtain ⟨k', hle, h'⟩ := Sound.run hordered bs k _ h
  rw [← TSys.run_append] at h'
  refine ⟨k, k', hle, h'.bound, h.built, h'.built, ?_, ?_⟩
  · intro task release outcome hphase
    have hfinished : Consistent catalog k _ := hphase ▸ h.consistent task
    exact hfinished.1
  · intro task release hphase
    have hlisting : Consistent catalog k (.listing release) := hphase ▸ h.consistent task
    have hverify := verify_iff hordered h.bound hlisting.1 hlisting.2
    rw [← h.built.versions] at hverify
    simpa [Cluster.step, Cluster.proceed, Cluster.setPhase, hphase, Phase.ended] using hverify

def twoMigrations : List EmbeddedMigration :=
  [⟨"000001", "CREATE TABLE a (id INT);"⟩, ⟨"000002", "CREATE TABLE b (id INT);"⟩]

/-- The older release migrates; a second replica of it, which may not, is about
to read the versions. -/
def olderRelease : List Action :=
  .start 0 1 false :: List.replicate 6 (.statement 0 .ok) ++ [.start 2 1 true, .statement 2 .ok]

/-- The newer release migrates; the answer to its commit is lost. -/
def newerRelease : List Action :=
  .start 1 2 false :: List.replicate 6 (.statement 1 .ok) ++ [.statement 1 .lost]

/-- Both releases commit. -/
theorem migrations_applied_once_upgrade :
    let s := (Cluster.system twoMigrations).run {} olderRelease
    let s' := (Cluster.system twoMigrations).run {} (olderRelease ++ newerRelease)
    s.database.versions = ["000001"] ∧ s.phases 2 = .listing 1 ∧
    s'.database.versions = ["000001", "000002"] ∧
    ∃ k k', k ≤ k' ∧ k' ≤ twoMigrations.length ∧ Built twoMigrations k s.database ∧
      Built twoMigrations k' s'.database ∧
      (∀ task release outcome, s.phases task = .finished release outcome → release ≤ k) ∧
      ∀ task release, s.phases task = .listing release →
        ((s.step twoMigrations (.statement task .ok)).phases task = .finished release .disabled ↔
          k = release) := by
  have hversions : "000001" < "000002" := String.lt_iff_toList_lt.mpr (by decide)
  have hordered : Ordered twoMigrations := List.pairwise_pair.mpr hversions
  exact ⟨rfl, rfl, rfl, migrations_applied_once hordered olderRelease newerRelease⟩

end Invariant

end Conduit.Database

/-!
## When a migration was applied

`rfc3339_utc_now` computes the date itself. It counts days from 1 March of the
year 0 in eras of 400 years, so that a leap day is the last day of a year; its
estimate of the year of an era is right because 1460 days are at most a day
short of four years. The date it writes is the one of the calendar.
-/

namespace Conduit.Database

open Base Base.Gregorian

/-- A number with leading zeros, as `{n:0width}`. -/
def padded (width n : Nat) : String :=
  String.ofList (List.replicate (width - (toString n).length) '0') ++ toString n

/-- The text of a date and a time of the day. -/
def rfc3339 (year month day hour minute second : Nat) : String :=
  padded 4 year ++ "-" ++ padded 2 month ++ "-" ++ padded 2 day ++ "T" ++ padded 2 hour ++ ":" ++
    padded 2 minute ++ ":" ++ padded 2 second ++ "Z"

/-- Year, month and day from a year that begins in March and the day in it. -/
def marchDate (year dayOfYear : Int) : Int × Int × Int :=
  let monthPrime := (5 * dayOfYear + 2) / 153
  let day := dayOfYear - (153 * monthPrime + 2) / 5 + 1
  let month := if monthPrime < 10 then monthPrime + 3 else monthPrime - 9
  (if month ≤ 2 then year + 1 else year, month, day)

/-- Year, month and day of a number of days since the epoch. -/
def civilDate (days : Int) : Int × Int × Int :=
  let z := days + 719468
  let era := (if 0 ≤ z then z else z - 146096).tdiv 146097
  let dayOfEra := z - era * 146097
  let yearOfEra :=
    (dayOfEra - dayOfEra / 1460 + dayOfEra / 36524 - dayOfEra / 146096) / 365
  let dayOfYear := dayOfEra - (365 * yearOfEra + yearOfEra / 4 - yearOfEra / 100)
  marchDate (yearOfEra + era * 400) dayOfYear

/-- `rfc3339_utc_now` at a number of seconds since the epoch. -/
def rfc3339Utc (seconds : Nat) : String :=
  let date := civilDate (seconds / 86400 : Nat)
  let daySeconds := seconds % 86400
  rfc3339 date.1.toNat date.2.1.toNat date.2.2.toNat (daySeconds / 3600) (daySeconds % 3600 / 60)
    (daySeconds % 60)

example : rfc3339Utc 951782399 = "2000-02-28T23:59:59Z" := by decide

/-! ## Days of an era -/

/-- A day of an era by its century, its four years, its year and its day of
the year; years of 366 days end the four years. -/
theorem era_cases {dayOfEra : Int} (hlow : 0 ≤ dayOfEra) (hhigh : dayOfEra < 146097) :
    ∃ century cycle year day : Int, (0 ≤ century ∧ century ≤ 3) ∧ (0 ≤ cycle ∧ cycle ≤ 24) ∧
      (0 ≤ year ∧ year ≤ 3) ∧ (0 ≤ day ∧ day ≤ 365) ∧
      dayOfEra = 36524 * century + 1461 * cycle + 365 * year + day ∧
      (day = 365 → year = 3 ∧ (cycle = 24 → century = 3)) := by
  obtain ⟨century, hcentury⟩ : ∃ century, century = min (dayOfEra / 36524) 3 := ⟨_, rfl⟩
  obtain ⟨cycle, hcycle⟩ : ∃ cycle, cycle = min ((dayOfEra - 36524 * century) / 1461) 24 := ⟨_, rfl⟩
  obtain ⟨year, hyear⟩ :
      ∃ year, year = min ((dayOfEra - 36524 * century - 1461 * cycle) / 365) 3 := ⟨_, rfl⟩
  have hcenturyBounds : 0 ≤ century ∧ century ≤ 3 := by omega
  have hcenturyDay : 0 ≤ dayOfEra - 36524 * century ∧ dayOfEra - 36524 * century ≤ 36524 ∧
      (dayOfEra - 36524 * century = 36524 → century = 3) := by omega
  clear hcentury
  have hcycleBounds : 0 ≤ cycle ∧ cycle ≤ 24 := by omega
  have hcycleDay : 0 ≤ dayOfEra - 36524 * century - 1461 * cycle ∧
      dayOfEra - 36524 * century - 1461 * cycle ≤ 1460 ∧
      (dayOfEra - 36524 * century - 1461 * cycle = 1460 → cycle = 24 → century = 3) := by omega
  clear hcycle
  exact ⟨century, cycle, year, dayOfEra - 36524 * century - 1461 * cycle - 365 * year,
    hcenturyBounds, hcycleBounds, by omega, by omega, by omega, by omega⟩

/-- A day of a year less the leap days counted late is a day of 365. -/
theorem day_sub_late {before day : Int} (hbefore : 0 ≤ before ∧ before ≤ 1191)
    (hday : 0 ≤ day ∧ day ≤ 365) (hlast : day = 365 → 1095 ≤ before) :
    0 ≤ day - (before + day) / 1460 ∧ day - (before + day) / 1460 < 365 := by
  omega

/-- The estimate of the year: within a year, the days counted by 1460 are
behind by the leap days before it, and by one more at most near its end. -/
theorem yearOfEra_eq {century cycle year day : Int} (hcentury : 0 ≤ century ∧ century ≤ 3)
    (hcycle : 0 ≤ cycle ∧ cycle ≤ 24) (hyear : 0 ≤ year ∧ year ≤ 3) (hday : 0 ≤ day ∧ day ≤ 365)
    (hleap : day = 365 → year = 3 ∧ (cycle = 24 → century = 3)) {dayOfEra : Int}
    (h : dayOfEra = 36524 * century + 1461 * cycle + 365 * year + day) :
    (dayOfEra - dayOfEra / 1460 + dayOfEra / 36524 - dayOfEra / 146096) / 365 =
      100 * century + 4 * cycle + year := by
  have hbefore : 0 ≤ 24 * century + cycle + 365 * year ∧
      24 * century + cycle + 365 * year ≤ 1191 := by omega
  have hlast : day = 365 → 1095 ≤ 24 * century + cycle + 365 * year := by omega
  have hlateBounds := day_sub_late hbefore hday hlast
  clear hbefore hlast
  obtain ⟨late, hlate⟩ :
      ∃ late, late = (24 * century + cycle + 365 * year + day) / 1460 := ⟨_, rfl⟩
  rw [← hlate] at hlateBounds
  have hcycles : dayOfEra / 1460 = 25 * century + cycle + late := by
    have hsplit : dayOfEra =
        24 * century + cycle + 365 * year + day + 1460 * (25 * century + cycle) := by omega
    rw [hsplit, Int.add_mul_ediv_left _ _ (by decide), hlate, Int.add_comm]
  have hcenturies : dayOfEra / 36524 - dayOfEra / 146096 = century := by
    -- only the last day of an era is behind its fourth full century
    have hrest : 0 ≤ 1461 * cycle + 365 * year + day ∧
        (1461 * cycle + 365 * year + day < 36524 ∨
          (1461 * cycle + 365 * year + day = 36524 ∧ century = 3)) := by omega
    have hwhole : dayOfEra = 36524 * century + (1461 * cycle + 365 * year + day) := by omega
    generalize 1461 * cycle + 365 * year + day = rest at hrest hwhole
    clear hlateBounds hcycles hlate h
    omega
  have hestimate : dayOfEra - dayOfEra / 1460 + dayOfEra / 36524 - dayOfEra / 146096 =
      365 * (100 * century + 4 * cycle + year) + (day - late) := by
    rw [Int.add_sub_assoc, hcenturies, hcycles, h]
    ring
  rw [hestimate, Int.add_comm, Int.add_mul_ediv_left _ _ (by decide),
    Int.ediv_eq_zero_of_lt hlateBounds.1 hlateBounds.2, Int.zero_add]

/-! ## The date -/

/-- A year that begins in March: its first day, and its length. -/
theorem yearStart_march {century cycle year : Int} (hcycle : 0 ≤ cycle ∧ cycle ≤ 24)
    (hcentury : 0 ≤ century ∧ century ≤ 3) (hyear : 0 ≤ year ∧ year ≤ 3) (era : Int) :
    yearStart (100 * century + 4 * cycle + year + era * 400 + 1) =
      146097 * era + 36524 * century + 1461 * cycle + 365 * year - 719468 + 306 := by
  unfold yearStart
  omega

theorem leapDay_march {century cycle year : Int} (hyear : year = 3)
    (hcycle : 0 ≤ cycle ∧ cycle ≤ 24) (hleap : cycle = 24 → century = 3) (era : Int) :
    leapDay (100 * century + 4 * cycle + year + era * 400 + 1) = 1 := by
  unfold leapDay isLeap
  rw [if_pos]
  rw [decide_eq_true_eq]
  omega

/-- The months of a year that begins in March. -/
theorem monthStart_march (year : Int) {monthPrime : Int} (hlow : 0 ≤ monthPrime)
    (hhigh : monthPrime < 12) :
    monthStart (12 * year + monthPrime + 2) =
      yearStart (year + 1) - 306 + (153 * monthPrime + 2) / 5 := by
  unfold monthStart daysBefore
  by_cases hmarch : monthPrime < 10
  · have hdiv : (12 * year + monthPrime + 2) / 12 = year := by omega
    have hmod : (12 * year + monthPrime + 2) % 12 = monthPrime + 2 := by omega
    rw [hdiv, hmod, if_neg (by omega), yearStart_succ, Int.add_sub_cancel]
    omega
  · have hdiv : (12 * year + monthPrime + 2) / 12 = year + 1 := by omega
    have hmod : (12 * year + monthPrime + 2) % 12 = monthPrime - 10 := by omega
    rw [hdiv, hmod, if_pos (by omega)]
    omega

/-- The day of the year lies in the month it is put in, also in the last one,
which is as long as the year leaves it. -/
theorem lt_monthStart_march {year monthPrime dayOfYear : Int}
    (hmonth : monthPrime = (5 * dayOfYear + 2) / 153) (hlow : 0 ≤ dayOfYear)
    (hlength : dayOfYear < 365 + leapDay (year + 1)) :
    yearStart (year + 1) - 306 + dayOfYear < monthStart (12 * year + (monthPrime + 1) + 2) := by
  have hleap := leapDay_cases (year + 1)
  by_cases hlast : monthPrime = 11
  · have hnext := monthStart_march (year + 1) (Int.le_refl 0) (by decide)
    have hindex : 12 * year + (monthPrime + 1) + 2 = 12 * (year + 1) + 0 + 2 := by omega
    rw [hindex, hnext, yearStart_succ (year + 1)]
    omega
  · rw [monthStart_march year (by omega) (by omega)]
    omega

/-- A date is right once its year in March is. -/
theorem marchDate_spec {days year dayOfYear : Int} (hlow : 0 ≤ dayOfYear)
    (hdays : days = yearStart (year + 1) - 306 + dayOfYear)
    (hlength : dayOfYear < 365 + leapDay (year + 1)) :
    monthOf days = 12 * (marchDate year dayOfYear).1 + ((marchDate year dayOfYear).2.1 - 1) ∧
      dayOf days = (marchDate year dayOfYear).2.2 ∧
      1 ≤ (marchDate year dayOfYear).2.1 ∧ (marchDate year dayOfYear).2.1 ≤ 12 := by
  obtain ⟨monthPrime, hmonth⟩ : ∃ monthPrime, monthPrime = (5 * dayOfYear + 2) / 153 := ⟨_, rfl⟩
  have hnext := lt_monthStart_march hmonth hlow hlength
  have hleap := leapDay_cases (year + 1)
  have hbounds : 0 ≤ monthPrime ∧ monthPrime < 12 := by omega
  have hstart := monthStart_march year hbounds.1 hbounds.2
  have hmonthOf : monthOf days = 12 * year + monthPrime + 2 := by
    refine months.index_eq_iff.mpr ⟨?_, ?_⟩
    · show monthStart (12 * year + monthPrime + 2) ≤ days
      rw [hstart, hdays]
      omega
    · show days < monthStart (12 * year + monthPrime + 2 + 1)
      rw [hdays, show 12 * year + monthPrime + 2 + 1 = 12 * year + (monthPrime + 1) + 2 by omega]
      exact hnext
  have hdayOf : dayOf days = dayOfYear - (153 * monthPrime + 2) / 5 + 1 := by
    unfold dayOf
    rw [hmonthOf, hstart, hdays]
    omega
  rw [hmonthOf, hdayOf]
  unfold marchDate
  dsimp only
  rw [← hmonth]
  by_cases hmarch : monthPrime < 10
  · rw [if_pos hmarch, if_neg (by omega)]
    omega
  · rw [if_neg hmarch, if_pos (by omega)]
    omega

/-- The days of an era before a year. -/
theorem days_before_year {century cycle year : Int} (hcycle : 0 ≤ cycle ∧ cycle ≤ 24)
    (hyear : 0 ≤ year ∧ year ≤ 3) (day : Int) :
    36524 * century + 1461 * cycle + 365 * year + day -
      (365 * (100 * century + 4 * cycle + year) + (100 * century + 4 * cycle + year) / 4 -
        (100 * century + 4 * cycle + year) / 100) = day := by
  have hcycles : (100 * century + 4 * cycle + year) / 4 = 25 * century + cycle := by omega
  have hcenturies : (100 * century + 4 * cycle + year) / 100 = century := by omega
  rw [hcycles, hcenturies]
  omega

/-- The era, the estimate and the day of the year of the computation. -/
theorem civilDate_eq {days era century cycle year day : Int}
    (hera : era = (days + 719468) / 146097) (hdays : 0 ≤ days + 719468)
    (hcentury : 0 ≤ century ∧ century ≤ 3)
    (hcycle : 0 ≤ cycle ∧ cycle ≤ 24) (hyear : 0 ≤ year ∧ year ≤ 3) (hday : 0 ≤ day ∧ day ≤ 365)
    (hleap : day = 365 → year = 3 ∧ (cycle = 24 → century = 3))
    (h : days + 719468 - era * 146097 = 36524 * century + 1461 * cycle + 365 * year + day) :
    civilDate days = marchDate (100 * century + 4 * cycle + year + era * 400) day := by
  have htrunc : (days + 719468).tdiv 146097 = era := by
    rw [hera]
    exact Int.tdiv_eq_ediv_of_nonneg hdays
  have hestimate := yearOfEra_eq hcentury hcycle hyear hday hleap h
  unfold civilDate
  dsimp only
  rw [if_pos hdays, htrunc, hestimate, h, days_before_year hcycle hyear]

/-- The computed date is that of the calendar. -/
theorem civilDate_spec (days : Int) (hdays : 0 ≤ days + 719468) :
    monthOf days = 12 * (civilDate days).1 + ((civilDate days).2.1 - 1) ∧
      dayOf days = (civilDate days).2.2 ∧
      1 ≤ (civilDate days).2.1 ∧ (civilDate days).2.1 ≤ 12 := by
  obtain ⟨era, hera⟩ : ∃ era, era = (days + 719468) / 146097 := ⟨_, rfl⟩
  obtain ⟨century, cycle, year, day, hcentury, hcycle, hyear, hday, hdayOfEra, hleap⟩ :=
    era_cases (show 0 ≤ days + 719468 - era * 146097 by omega)
      (show days + 719468 - era * 146097 < 146097 by omega)
  rw [civilDate_eq hera hdays hcentury hcycle hyear hday hleap hdayOfEra]
  apply marchDate_spec hday.1
  · rw [yearStart_march hcycle hcentury hyear]
    clear hera hleap hday
    omega
  · by_cases hlast : day = 365
    · obtain ⟨hthree, hcycles⟩ := hleap hlast
      rw [leapDay_march hthree hcycle hcycles]
      omega
    · have hleapDay := leapDay_cases (100 * century + 4 * cycle + year + era * 400 + 1)
      clear hera hdayOfEra
      omega

/-- The time a migration is recorded with is the instant's date in the
Gregorian calendar and its time of the day, in UTC. -/
theorem rfc3339_utc_now_eq (seconds : Nat) :
    let day : Int := (seconds / 86400 : Nat)
    let time := seconds % 86400
    rfc3339Utc seconds =
        rfc3339 (monthOf day / 12).toNat (monthOf day % 12 + 1).toNat (dayOf day).toNat
          (time / 3600) (time % 3600 / 60) (time % 60) ∧
      seconds = (seconds / 86400 * 24 + time / 3600) * 3600 + time % 3600 / 60 * 60 + time % 60 ∧
      time / 3600 < 24 ∧ time % 3600 / 60 < 60 ∧ time % 60 < 60 := by
  dsimp only
  obtain ⟨hmonth, hday, hlow, hhigh⟩ := civilDate_spec (seconds / 86400 : Nat) (by omega)
  refine ⟨?_, by omega, by omega, by omega, by omega⟩
  have hyear : monthOf (seconds / 86400 : Nat) / 12 = (civilDate (seconds / 86400 : Nat)).1 := by
    omega
  have hmonthOfYear : monthOf (seconds / 86400 : Nat) % 12 + 1 =
      (civilDate (seconds / 86400 : Nat)).2.1 := by omega
  rw [hyear, hmonthOfYear, hday]
  rfl

end Conduit.Database
