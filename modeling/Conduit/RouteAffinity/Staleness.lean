import Conduit.RouteAffinity.Runtime
import Mathlib.Tactic.NormNum

/-!
# How old an answer of the cache may be

Every value in a cache is an answer that the repository gave in some state of
the past, with a deadline at most one lifetime after the question was asked.
The deadline is read again at every lookup, so neither a backfill nor a late
write can prolong it.
-/

namespace Conduit.RouteAffinity

open Base

/-- The scope of a row, as the parts of a key. -/
def RouteAffinityRow.parts (row : RouteAffinityRow) : List String :=
  [row.projectId, row.keyClass, row.keyHash, row.publicModelId, row.apiFormat]

/-- The repository of a state answers a question that was asked less than `bound`
before `now`. If the state is not after `now`, it answers the same in that
state. -/
def AnsweredWithin (s : State) (key : RouteAffinityKey) (now : Int) (bound : Nat)
    (row : Option RouteAffinityRow) : Prop :=
  ∃ asked ≤ s.clock, now < asked + bound ∧ s.repo.findValidRouteAffinity key asked = row ∧
    (s.clock ≤ now → s.repo.findValidRouteAffinity key s.clock = row)

/-- A row that was looked up has the scope asked for and was valid when the
lookup began, and an answer of a cache was the repository's a short time ago. -/
def Outcome.Bounded (past : State → Prop) (bound : Nat) : Outcome → Prop
  | .looked key now source row =>
      (∀ found ∈ row, found.parts = key.parts ∧ now < found.expiresAt) ∧
        (source = .cache → ∃ s, past s ∧ AnsweredWithin s key now bound row)
  | .remembered _ => True
  | .failed => True

/-- So is everything that calls have returned. -/
def State.AnswersBounded (past : State → Prop) (bound : Nat) (s : State) : Prop :=
  ∀ (call process : Nat) (outcome : Outcome),
    s.calls call = some (process, .returned outcome) → outcome.Bounded past bound

/-! ## Keys of the caches -/

theorem toBeBytes_selfDelimiting : SelfDelimiting (fun n => n < 2 ^ 64) toBeBytes := by
  intro n m hn hm rest rest' heq
  obtain ⟨hbytes, hrest⟩ := List.append_inj heq rfl
  refine ⟨?_, hrest⟩
  have hdigit : ∀ i ∈ [7, 6, 5, 4, 3, 2, 1, 0], n / 256 ^ i % 256 = m / 256 ^ i % 256 := by
    intro i hi
    have hbyte := List.map_inj_left.mp hbytes i hi
    have hnat := congrArg UInt8.toNat hbyte
    rwa [UInt8.toNat_ofNat', UInt8.toNat_ofNat'] at hnat
  have h0 := hdigit 0 (by simp)
  have h1 := hdigit 1 (by simp)
  have h2 := hdigit 2 (by simp)
  have h3 := hdigit 3 (by simp)
  have h4 := hdigit 4 (by simp)
  have h5 := hdigit 5 (by simp)
  have h6 := hdigit 6 (by simp)
  have h7 := hdigit 7 (by simp)
  norm_num at hn hm h0 h1 h2 h3 h4 h5 h6 h7
  omega

theorem bytes_inj {text text' : String}
    (h : text.toByteArray.data.toList = text'.toByteArray.data.toList) : text = text' :=
  String.toByteArray_inj.mp (ByteArray.ext (Array.toList_inj.mp h))

theorem hashedPart_selfDelimiting :
    SelfDelimiting (fun part : String => part.toByteArray.data.toList.length < 2 ^ 64) hashedPart :=
  toBeBytes_selfDelimiting.lengthPrefixed (fun _ _ _ _ => bytes_inj) fun _ hpart => hpart

theorem parts_inj {key key' : RouteAffinityKey} (h : key.parts = key'.parts) : key = key' := by
  cases key
  cases key'
  unfold RouteAffinityKey.parts at h
  simp only [List.cons.injEq, and_true] at h
  obtain ⟨rfl, rfl, rfl, rfl, rfl⟩ := h
  rfl

variable (env : Environment)

theorem affinityCacheKey_inj {key key' : RouteAffinityKey}
    (h : affinityCacheKey env key = affinityCacheKey env key') : key = key' := by
  have hdigest := env.digest_injective _ _ ((String.append_right_inj _).mp h)
  refine parts_inj (hashedPart_selfDelimiting.flatMap key.parts key'.parts rfl key.fits key'.fits
    [] [] ?_).1
  rw [List.append_nil, List.append_nil]
  exact hdigest

theorem parts_of_rowMatchesKey {row : RouteAffinityRow} {key : RouteAffinityKey}
    (h : rowMatchesKey row key = true) : row.parts = key.parts := by
  unfold rowMatchesKey at h
  simp only [Bool.and_eq_true, decide_eq_true_eq] at h
  obtain ⟨⟨⟨⟨h1, h2⟩, h3⟩, h4⟩, h5⟩ := h
  unfold RouteAffinityRow.parts RouteAffinityKey.parts
  rw [h1, h2, h3, h4, h5]

/-! ## The invariant -/

section Invariant

variable (past : State → Prop)

/-- An entry holds what the repository of a past state answered, and its
deadline is at most the longest lifetime after the question. -/
def Vouched (key : RouteAffinityKey) (entry : RouteAffinityCacheEntry) : Prop :=
  ∃ s, past s ∧ ∃ asked ≤ s.clock, s.repo.findValidRouteAffinity key asked = entry.row ∧
    entry.validUntil ≤ asked + env.config.longestTtl

/-- A value set under a key of the caches is such an entry. -/
def Cached (entry : String × Json) : Prop :=
  ∃ key cached, entry = (affinityCacheKey env key, RouteAffinityCacheEntry.encode env.times cached) ∧
    Vouched env past key cached

/-- What is known of a call between two of its steps. -/
def Call.Sound (clock : Int) : Call → Prop
  | .getLocal _ now => now ≤ clock
  | .getRemote _ now => now ≤ clock
  | .backfill key now value => now ≤ clock ∧ Cached env past (affinityCacheKey env key, value)
  | .findValid _ now => now ≤ clock
  | .upsert _ now => now ≤ clock
  | .setRemote cacheKey value outcome =>
      Cached env past (cacheKey, value) ∧ outcome.Bounded past env.config.longestTtl
  | .setLocal cacheKey value outcome =>
      Cached env past (cacheKey, value) ∧ outcome.Bounded past env.config.longestTtl
  | .returned outcome => outcome.Bounded past env.config.longestTtl

/-- The caches hold answers of the past. -/
structure CachesSound (s : State) : Prop where
  remote : ∀ entry ∈ s.remote, Cached env past entry
  memory : ∀ process, ∀ entry ∈ s.memory process, Cached env past entry

structure Sound (s : State) : Prop where
  caches : CachesSound env past s
  calls : ∀ call process state, s.calls call = some (process, state) →
    state.Sound env past s.clock

end Invariant

section Steps

variable {env} {past : State → Prop} {s : State} {key : RouteAffinityKey} {now : Int}

/-! ### Reading -/

theorem answered_of_vouched {entry : RouteAffinityCacheEntry} (h : Vouched env past key entry)
    (hfresh : now < entry.validUntil) (hvalid : ∀ row ∈ entry.row, now < row.expiresAt) :
    ∃ s, past s ∧ AnsweredWithin s key now env.config.longestTtl entry.row := by
  obtain ⟨s, hpast, asked, hasked, hfind, hdeadline⟩ := h
  refine ⟨s, hpast, asked, hasked, by omega, hfind, ?_⟩
  intro hclock
  cases hrow : entry.row with
  | none =>
      rw [hrow] at hfind
      exact RouteAffinityRepo.findValid_none_mono hfind hasked
  | some row =>
      rw [hrow] at hfind
      have hunexpired : now < row.expiresAt := hvalid row hrow
      exact RouteAffinityRepo.findValid_of_some hfind (by omega)

theorem readCache_sound (hnow : now ≤ s.clock) {value : Option Json}
    (hvalue : ∀ v ∈ value, Cached env past (affinityCacheKey env key, v)) :
    (readCache env key now value).Sound env past s.clock := by
  cases value with
  | none => exact hnow
  | some v =>
      obtain ⟨key', entry, heq, hvouched⟩ := hvalue v rfl
      obtain ⟨hkey, rfl⟩ := Prod.mk.inj heq
      obtain rfl := affinityCacheKey_inj env hkey
      unfold readCache
      rw [Option.bind_some, RouteAffinityCacheEntry.decode_encode]
      dsimp only
      by_cases hexpired : entry.validUntil ≤ now
      · rw [if_pos hexpired]
        exact hnow
      · rw [if_neg hexpired]
        have hfresh : now < entry.validUntil := by omega
        cases hrow : entry.row with
        | none =>
            refine ⟨fun row hmem => absurd hmem (by simp), fun _ => ?_⟩
            rw [← hrow]
            exact answered_of_vouched hvouched hfresh (by simp [hrow])
        | some row =>
            dsimp only
            by_cases hgood : (rowMatchesKey row key && decide (now < row.expiresAt)) = true
            · rw [if_pos hgood]
              obtain ⟨hmatches, hunexpired⟩ := Bool.and_eq_true_iff.mp hgood
              have hvalid := of_decide_eq_true hunexpired
              refine ⟨?_, fun _ => ?_⟩
              · intro found hmem
                obtain rfl := Option.mem_some_iff.mp hmem
                exact ⟨parts_of_rowMatchesKey hmatches, hvalid⟩
              · rw [← hrow]
                exact answered_of_vouched hvouched hfresh (by simpa [hrow] using hvalid)
            · rw [if_neg hgood]
              exact hnow

/-! ### Writing -/

theorem cached_routeCacheValue (hpast : past s) {asked : Int} (hasked : asked ≤ s.clock)
    {row : Option RouteAffinityRow} (hfind : s.repo.findValidRouteAffinity key asked = row) {ttl : Nat}
    (httl : ttl ≤ env.config.longestTtl) :
    ∀ v ∈ routeCacheValue env row asked ttl, Cached env past (affinityCacheKey env key, v) := by
  intro v hv
  unfold routeCacheValue at hv
  obtain ⟨validUntil, hdeadline, rfl⟩ := Option.map_eq_some_iff.mp hv
  unfold cacheDeadline at hdeadline
  split at hdeadline
  · obtain rfl := Option.some.inj hdeadline
    exact ⟨key, { row, validUntil := asked + ttl }, rfl, s, hpast, asked, hasked, hfind, by
      show asked + (ttl : Int) ≤ asked + env.config.longestTtl
      omega⟩
  · exact absurd hdeadline (by simp)

theorem writeCache_sound {value : Option Json} {outcome : Outcome} {clock : Int}
    (hvalue : ∀ v ∈ value, Cached env past (affinityCacheKey env key, v))
    (houtcome : outcome.Bounded past env.config.longestTtl) :
    (writeCache env key value outcome).Sound env past clock := by
  cases value with
  | none => exact houtcome
  | some v => exact ⟨hvalue v rfl, houtcome⟩

theorem cachePositive_sound (hpast : past s) (hnow : now ≤ s.clock) {row : RouteAffinityRow}
    (hfind : now < row.expiresAt → s.repo.findValidRouteAffinity key now = some row)
    {outcome : Outcome} {clock : Int} (houtcome : outcome.Bounded past env.config.longestTtl) :
    (cachePositive env key row now outcome).Sound env past clock := by
  unfold cachePositive
  dsimp only
  by_cases hremaining : (row.expiresAt - now).toNat = 0
  · rw [if_pos hremaining]
    exact houtcome
  · rw [if_neg hremaining]
    refine writeCache_sound (cached_routeCacheValue hpast hnow (hfind (by omega)) ?_) houtcome
    unfold RouteAffinityRuntimeConfig.longestTtl
    omega

theorem cacheAnswer_sound (hpast : past s) (hnow : now ≤ s.clock) {clock : Int} :
    (cacheAnswer env key now (s.repo.findValidRouteAffinity key now)).Sound env past clock := by
  have houtcome : (Outcome.looked key now .repository (s.repo.findValidRouteAffinity key now)).Bounded
      past env.config.longestTtl := by
    refine ⟨?_, fun h => absurd h (by simp)⟩
    intro row hrow
    obtain ⟨hmatches, hvalid⟩ := RouteAffinityRepo.findValid_some hrow
    exact ⟨parts_of_rowMatchesKey hmatches, hvalid⟩
  cases hfind : s.repo.findValidRouteAffinity key now with
  | none =>
      rw [hfind] at houtcome
      refine writeCache_sound (cached_routeCacheValue hpast hnow hfind ?_) houtcome
      unfold RouteAffinityRuntimeConfig.longestTtl
      omega
  | some row =>
      rw [hfind] at houtcome
      exact cachePositive_sound hpast hnow (fun _ => hfind) houtcome

/-! ### Calls -/

theorem mem_of_everSet {entries : List (String × Json)} {cacheKey : String} {index : Nat} {value : Json}
    (h : everSet entries cacheKey index = some value) : (cacheKey, value) ∈ entries := by
  unfold everSet at h
  obtain ⟨⟨found, v⟩, hfound, rfl⟩ := Option.map_eq_some_iff.mp h
  obtain ⟨hmem, hkey⟩ := List.mem_filter.mp (List.mem_of_getElem? hfound)
  obtain rfl : found = cacheKey := of_decide_eq_true hkey
  exact hmem

theorem CachesSound.setMemory (h : CachesSound env past s) {process : Nat} {cacheKey : String}
    {value : Json} (hvalue : Cached env past (cacheKey, value)) :
    CachesSound env past (s.setMemory process cacheKey value) where
  remote := h.remote
  memory := by
    intro other entry hmem
    unfold State.setMemory at hmem
    dsimp only at hmem
    split at hmem
    · rcases List.mem_cons.mp hmem with rfl | hmem
      · exact hvalue
      · exact h.memory _ entry hmem
    · exact h.memory _ entry hmem

theorem CachesSound.setRemote (h : CachesSound env past s) {cacheKey : String} {value : Json}
    (hvalue : Cached env past (cacheKey, value)) :
    CachesSound env past (s.setRemote cacheKey value) where
  remote := by
    intro entry hmem
    rcases List.mem_cons.mp hmem with rfl | hmem
    · exact hvalue
    · exact h.remote entry hmem
  memory := h.memory

/-- A step of a call writes only what was answered. Its repository call is
answered in the state after the step, which is a state of the past from then on. -/
theorem resume_sound {process : Nat} {call : Call} (reply : Reply) (hcaches : CachesSound env past s)
    (hcall : call.Sound env past s.clock) {after : State} (hpast : past after)
    (hrepo : after.repo = (resume env s process call reply).1.repo) (hclock : after.clock = s.clock) :
    CachesSound env past (resume env s process call reply).1 ∧
      (resume env s process call reply).2.Sound env past s.clock := by
  cases call with
  | getLocal key now =>
      cases reply with
      | value index =>
          unfold resume
          dsimp only
          cases hset : everSet (s.memory process) (affinityCacheKey env key) index with
          | none => exact ⟨hcaches, hcall⟩
          | some value =>
              refine ⟨hcaches, readCache_sound hcall ?_⟩
              intro v hv
              obtain rfl := Option.mem_some_iff.mp hv
              exact hcaches.memory process _ (mem_of_everSet hset)
      | missing => exact ⟨hcaches, hcall⟩
      | done _ => exact ⟨hcaches, hcall⟩
      | failed _ _ => exact ⟨hcaches, hcall⟩
  | getRemote key now =>
      cases reply with
      | value index =>
          unfold resume
          dsimp only
          cases hset : everSet s.remote (affinityCacheKey env key) index with
          | none => exact ⟨hcaches, hcall⟩
          | some value => exact ⟨hcaches, hcall, hcaches.remote _ (mem_of_everSet hset)⟩
      | missing => exact ⟨hcaches, hcall⟩
      | done _ => exact ⟨hcaches, hcall⟩
      | failed _ _ => exact ⟨hcaches, hcall⟩
  | backfill key now value =>
      cases reply with
      | value _ => exact ⟨hcaches, hcall⟩
      | missing => exact ⟨hcaches, hcall⟩
      | done _ =>
          refine ⟨hcaches.setMemory hcall.2, readCache_sound hcall.1 ?_⟩
          intro v hv
          obtain rfl := Option.mem_some_iff.mp hv
          exact hcall.2
      | failed applied _ =>
          refine ⟨?_, hcall.1⟩
          cases applied with
          | true => exact hcaches.setMemory hcall.2
          | false => exact hcaches
  | findValid key now =>
      cases reply with
      | value _ => exact ⟨hcaches, hcall⟩
      | missing => exact ⟨hcaches, hcall⟩
      | done _ =>
          refine ⟨hcaches, ?_⟩
          have hanswer := @cacheAnswer_sound env past after key now hpast
            (by rw [hclock]; exact hcall) s.clock
          rw [hrepo] at hanswer
          exact hanswer
      | failed _ _ => exact ⟨hcaches, trivial⟩
  | upsert input now =>
      cases reply with
      | value _ => exact ⟨hcaches, hcall⟩
      | missing => exact ⟨hcaches, hcall⟩
      | done freshId =>
          refine ⟨⟨hcaches.remote, hcaches.memory⟩, ?_⟩
          refine cachePositive_sound hpast (by rw [hclock]; exact hcall) ?_ trivial
          intro hvalid
          rw [hrepo]
          exact RouteAffinityRepo.findValid_upsert s.repo input freshId hvalid
      | failed applied _ =>
          refine ⟨?_, trivial⟩
          cases applied with
          | true => exact ⟨hcaches.remote, hcaches.memory⟩
          | false => exact hcaches
  | setRemote cacheKey value outcome =>
      cases reply with
      | value _ => exact ⟨hcaches, hcall⟩
      | missing => exact ⟨hcaches, hcall⟩
      | done _ => exact ⟨hcaches.setRemote hcall.1, hcall⟩
      | failed applied _ =>
          refine ⟨?_, hcall.2⟩
          cases applied with
          | true => exact hcaches.setRemote hcall.1
          | false => exact hcaches
  | setLocal cacheKey value outcome =>
      cases reply with
      | value _ => exact ⟨hcaches, hcall⟩
      | missing => exact ⟨hcaches, hcall⟩
      | done _ => exact ⟨hcaches.setMemory hcall.1, hcall.2⟩
      | failed applied _ =>
          refine ⟨?_, hcall.2⟩
          cases applied with
          | true => exact hcaches.setMemory hcall.1
          | false => exact hcaches
  | returned outcome =>
      cases reply <;> exact ⟨hcaches, hcall⟩

theorem resume_frame (process : Nat) (call : Call) (reply : Reply) :
    (resume env s process call reply).1.clock = s.clock ∧
      (resume env s process call reply).1.calls = s.calls := by
  unfold resume
  split <;> first | exact ⟨rfl, rfl⟩ | (split <;> exact ⟨rfl, rfl⟩)

theorem Call.Sound.later {call : Call} {clock later : Int} (h : call.Sound env past clock)
    (hle : clock ≤ later) : call.Sound env past later := by
  cases call with
  | getLocal key now => exact Int.le_trans h hle
  | getRemote key now => exact Int.le_trans h hle
  | backfill key now value => exact ⟨Int.le_trans h.1 hle, h.2⟩
  | findValid key now => exact Int.le_trans h hle
  | upsert input now => exact Int.le_trans h hle
  | setRemote cacheKey value outcome => exact h
  | setLocal cacheKey value outcome => exact h
  | returned outcome => exact h

theorem Sound.setCall (h : Sound env past s) {call : Nat} {entry : Option (Nat × Call)}
    (hentry : ∀ process state, entry = some (process, state) → state.Sound env past s.clock) :
    Sound env past (s.setCall call entry) where
  caches := ⟨h.caches.remote, h.caches.memory⟩
  calls := by
    intro other process state hcall
    unfold State.setCall at hcall
    dsimp only at hcall
    split at hcall
    · exact hentry process state hcall
    · exact h.calls other process state hcall

theorem Sound.begin (h : Sound env past s) {call process : Nat} {start : Call}
    (hstart : start.Sound env past s.clock) : Sound env past (s.begin call process start) := by
  unfold State.begin
  split
  · refine h.setCall ?_
    rintro _ _ ⟨⟩
    exact hstart
  · exact h

theorem Sound.step (h : Sound env past s) (action : Action)
    (hafter : past (RouteAffinity.step env s action)) :
    Sound env past (RouteAffinity.step env s action) := by
  cases action with
  | tick elapsed =>
      refine ⟨⟨h.caches.remote, h.caches.memory⟩, ?_⟩
      intro call process state hcall
      exact (h.calls call process state hcall).later (by
        show s.clock ≤ s.clock + (elapsed : Int)
        omega)
  | lookup call process key => exact h.begin (Int.le_refl _)
  | remember call process input => exact h.begin (Int.le_refl _)
  | purgeExpired now chosen =>
      unfold RouteAffinity.step
      dsimp only
      split
      · exact ⟨⟨h.caches.remote, h.caches.memory⟩, h.calls⟩
      · exact h
  | proceed call reply =>
      cases hcall : s.calls call with
      | none =>
          unfold RouteAffinity.step
          dsimp only
          rw [hcall]
          exact h
      | some entry =>
          obtain ⟨process, state⟩ := entry
          have heq : RouteAffinity.step env s (.proceed call reply) =
              (resume env s process state reply).1.setCall call
                (some (process, (resume env s process state reply).2)) := by
            unfold RouteAffinity.step
            dsimp only
            rw [hcall]
          obtain ⟨hclock, hcalls⟩ := @resume_frame env s process state reply
          rw [heq] at hafter ⊢
          obtain ⟨hcaches, hstate⟩ := resume_sound reply h.caches (h.calls call process state hcall)
            hafter rfl hclock
          refine Sound.setCall ⟨hcaches, ?_⟩ ?_
          · intro other process' state' hother
            rw [hclock]
            rw [hcalls] at hother
            exact h.calls other process' state' hother
          · rintro _ _ ⟨⟩
            rw [hclock]
            exact hstate
  | drop call => exact h.setCall (by rintro _ _ ⟨⟩)

end Steps

/-! ## Whole runs -/

/-- Whatever processes do in whatever order, each answer is bounded. -/
theorem answers_bounded (clock : Int) (rows : List RouteAffinityRow) (actions : List Action) :
    ((system env clock rows).run (system env clock rows).init actions).AnswersBounded
      ((system env clock rows).Past actions) env.config.longestTtl := by
  have hsound : Sound env ((system env clock rows).Past actions)
      ((system env clock rows).run (system env clock rows).init actions) := by
    refine (system env clock rows).run_past ?_ fun s action _ hafter h => h.step action hafter
    refine ⟨⟨?_, ?_⟩, ?_⟩
    · exact fun entry hmem => absurd hmem (by simp [system])
    · exact fun process entry hmem => absurd hmem (by simp [system])
    · exact fun call process state hcall => absurd hcall (by simp [system])
  intro call process outcome hcall
  exact hsound.calls call process _ hcall

/-! ## A run -/

/-- Nanoseconds. -/
def seconds (n : Int) : Int := n * 1000000000

/-- The instants of the run and their texts. -/
def sampleInstants : List (Int × String) := [
  (seconds 0, "1970-01-01T00:00:00Z"),
  (seconds 60, "1970-01-01T00:01:00Z"),
  (seconds 3600, "1970-01-01T01:00:00Z")]

/-- Other instants are written as their number. -/
def renderSample (instant : Int) : String :=
  (sampleInstants.lookup instant).getD (String.ofList ('@' :: instant.repr.toList))

def parseSample (text : String) : Option Int :=
  match text.toList with
  | '@' :: digits => (String.ofList digits).toInt?
  | _ => (sampleInstants.find? fun entry => entry.2 = text).map Prod.fst

theorem parseSample_render (instant : Int) : parseSample (renderSample instant) = some instant := by
  unfold renderSample
  cases hlookup : sampleInstants.lookup instant with
  | none => simp [parseSample]
  | some text =>
      obtain ⟨before, after, hsplit, -⟩ := List.lookup_eq_some_iff.mp hlookup
      have hmem : (instant, text) ∈ sampleInstants := by simp [hsplit]
      simp only [sampleInstants, List.mem_cons, Prod.mk.injEq, List.not_mem_nil, or_false] at hmem
      rcases hmem with ⟨rfl, rfl⟩ | ⟨rfl, rfl⟩ | ⟨rfl, rfl⟩
      · rfl
      · rfl
      · rfl

def sampleTimes : TimeCodec where
  render := renderSample
  parse := parseSample
  parse_render := parseSample_render

def sampleKey : RouteAffinityKey where
  projectId := "1"
  keyClass := "session"
  keyHash := "9f86d081"
  publicModelId := "gpt-4o"
  apiFormat := "openai"
  fits := by decide

/-- The digest of the key of the run; of other bytes the bytes themselves. -/
def sampleDigest (bytes : List UInt8) : String :=
  if bytes = sampleKey.parts.flatMap hashedPart then
    "406ef4d1af2155c74c8d48230245ce53841545ee75ddfbf6173103555e4b6169"
  else String.ofList ('x' :: bytes.map fun b => Char.ofNat b.toNat)

theorem sampleDigest_injective (bytes bytes' : List UInt8)
    (h : sampleDigest bytes = sampleDigest bytes') : bytes = bytes' := by
  unfold sampleDigest at h
  split at h <;> split at h
  · next hkey hkey' => rw [hkey, hkey']
  · exact absurd (congrArg (fun text => text.toList.head?) h) (by simp)
  · exact absurd (congrArg (fun text => text.toList.head?) h) (by simp)
  · have hchars := (List.cons.inj (String.ofList_injective h)).2
    refine List.map_injective_iff.mpr (fun b b' hchar => UInt8.toNat_inj.mp ?_) hchars
    have hvalid (b : UInt8) : b.toNat.isValidChar := .inl (by have := b.toNat_lt; omega)
    have hnat := congrArg Char.toNat hchar
    rwa [Char.toNat_ofNat, Char.toNat_ofNat, if_pos (hvalid b), if_pos (hvalid b')] at hnat

def sampleEnvironment : Environment where
  config := { lookupCacheTtl := 60000000000, negativeCacheTtl := 5000000000 }
  times := sampleTimes
  digest := sampleDigest
  digest_injective := sampleDigest_injective
  maxUtc := 8210266876799999999999

def sampleRow : RouteAffinityRow where
  id := "1"
  projectId := "1"
  keyClass := "session"
  keyHash := "9f86d081"
  publicModelId := "gpt-4o"
  apiFormat := "openai"
  channelId := "3"
  upstreamModelId := "gpt-4o"
  upstreamApiFormat := "openai"
  credentialIdentity := none
  expiresAt := seconds 3600
  createdAt := seconds 0
  updatedAt := seconds 0

/-- The first process looks the row up and caches it, the second one writes
another channel, and ten seconds later the first one looks it up again. -/
def staleRun : List Action :=
  [.lookup 0 0 sampleKey, .proceed 0 .missing, .proceed 0 .missing, .proceed 0 (.done "2"),
    .proceed 0 (.done "2"), .proceed 0 (.done "2"),
    .remember 1 1 ⟨sampleKey, "4", "gpt-4o", "openai", none, seconds 3600⟩,
    .proceed 1 (.done "2"), .proceed 1 (.done "2"), .proceed 1 (.done "2"),
    .tick 10000000000, .lookup 2 0 sampleKey, .proceed 2 (.value 0)]

def sampleSystem : TSys State Action := system sampleEnvironment 0 [sampleRow]

def staleState : State := sampleSystem.run sampleSystem.init staleRun

theorem answers_bounded_stale :
    staleState.calls 2 =
        some (0, .returned (.looked sampleKey (seconds 10) .cache (some sampleRow))) ∧
      staleState.repo.findValidRouteAffinity sampleKey staleState.clock ≠ some sampleRow ∧
      ∃ earlier, sampleSystem.Past staleRun earlier ∧
        AnsweredWithin earlier sampleKey (seconds 10) 60000000000 (some sampleRow) := by
  have hcached : staleState.calls 2 =
      some (0, .returned (.looked sampleKey (seconds 10) .cache (some sampleRow))) := rfl
  refine ⟨hcached, by decide, ?_⟩
  exact (answers_bounded sampleEnvironment 0 [sampleRow] staleRun 2 0 _ hcached).2 rfl

end Conduit.RouteAffinity
