import Conduit.Base.TSys
import Conduit.Base.Text
import Mathlib

/-!
# Which API key a request uses

`rendezvous_select` is the argument of the largest score (`rendezvousSelect_eq`),
so with distinct scores it depends on the set of the keys alone. A trace keeps
its key in a cache; `decideCredential_plain` is the step lemma, and the run lemma
`inductive_inv` carries that the cache holds what each trace used last.
-/

namespace Conduit.Channels

open Base

/-! ## Rendezvous hashing -/

/-- FNV-1a. -/
def hashApiKeyFnv64a (text : String) : UInt64 :=
  (Text.asBytes text).foldl (fun hash byte => (hash ^^^ byte.toUInt64) * 0x100000001b3)
    0xcbf29ce484222325

def score (seed key : String) : UInt64 := hashApiKeyFnv64a (seed ++ "|" ++ key)

/-- A key of a larger score takes the place of the best. -/
def better (seed : String) (best : String × UInt64) (key : String) : String × UInt64 :=
  if best.2 < score seed key then (key, score seed key) else best

def rendezvousSelect (keys : List String) (seed : String) : Option String :=
  match keys with
  | [] => none
  | first :: keys => some (keys.foldl (better seed) (first, score seed first)).1

/-! ## The decision -/

inductive CredentialKind
  | oauth
  | azure
  | gcp
  | apiKey
deriving DecidableEq, Repr

structure CredentialSnapshot where
  enabledApiKeys : List String
  legacyApiKey : String := ""
  isOauth : Bool := false
  hasAzure : Bool := false
  hasGcp : Bool := false
  overrideKey : String := ""

structure CredentialDecision where
  kind : CredentialKind
  apiKey : Option String
  keysExhausted : Bool

structure TraceKeyState where
  traceId : Option String
  cachedStickyKey : Option String

def CredentialSnapshot.kind (snapshot : CredentialSnapshot) : CredentialKind :=
  if snapshot.isOauth then .oauth
  else if snapshot.hasAzure then .azure
  else if snapshot.hasGcp then .gcp
  else .apiKey

/-- The key of a trace among several: the cached one while it is enabled. -/
def selectMultiKey (enabled : List String) (first : String) (trace : TraceKeyState) : String :=
  match trace.traceId with
  | some traceId =>
      match trace.cachedStickyKey with
      | some cached =>
          if cached ∈ enabled then cached else (rendezvousSelect enabled traceId).getD first
      | none => (rendezvousSelect enabled traceId).getD first
  | none => first

def decideCredential (snapshot : CredentialSnapshot) (trace : TraceKeyState) : CredentialDecision :=
  if snapshot.overrideKey ≠ "" then ⟨.apiKey, some snapshot.overrideKey, false⟩
  else if snapshot.kind ≠ .apiKey then ⟨snapshot.kind, none, false⟩
  else
    match snapshot.enabledApiKeys with
    | [] =>
        ⟨.apiKey, if snapshot.legacyApiKey = "" then none else some snapshot.legacyApiKey, true⟩
    | [only] => ⟨.apiKey, some only, false⟩
    | first :: second :: keys =>
        ⟨.apiKey, some (selectMultiKey (first :: second :: keys) first trace), false⟩

/-! ## Runs -/

/-- The keys of a channel that are not disabled. An empty entry disables nothing. -/
def getEnabledApiKeys (keys disabled : List String) : List String :=
  keys.filter fun key => key ∉ disabled.filter fun entry => entry ≠ ""

inductive KeyEvent
  | disable (key : String)
  | enable (key : String)
  | call (trace : String)

/-- A call, with the keys that were enabled and the key that was decided on. -/
structure KeyCall where
  trace : String
  enabled : List String
  key : Option String

structure KeyState where
  disabled : List String := []
  /-- The result of the last call of each trace. -/
  cache : String → Option String := fun _ => none
  calls : List KeyCall := []

/-- The snapshot of a plain channel without an override. -/
def plainSnapshot (legacyApiKey : String) (enabled : List String) : CredentialSnapshot where
  enabledApiKeys := enabled
  legacyApiKey

def keyStep (keys : List String) (legacyApiKey : String) (s : KeyState) : KeyEvent → KeyState
  | .disable key => { s with disabled := key :: s.disabled }
  | .enable key => { s with disabled := s.disabled.filter fun entry => entry ≠ key }
  | .call trace =>
      let enabled := getEnabledApiKeys keys s.disabled
      let decision := decideCredential (plainSnapshot legacyApiKey enabled) ⟨some trace, s.cache trace⟩
      { s with
        cache := Function.update s.cache trace decision.apiKey
        calls := s.calls ++ [⟨trace, enabled, decision.apiKey⟩] }

/-- The calls of a channel with these keys. -/
def keyRuns (keys : List String) (legacyApiKey : String) : TSys KeyState KeyEvent where
  init := {}
  step := keyStep keys legacyApiKey

/-- The key that a trace used last. -/
def lastKey (trace : String) (calls : List KeyCall) : Option String :=
  ((calls.filter fun call => call.trace = trace).getLast?).bind KeyCall.key

/-- Every key is enabled, and a trace leaves its key only when that is not. -/
def StickyCalls (calls : List KeyCall) : Prop :=
  ∀ (before : List KeyCall) (call : KeyCall) (after : List KeyCall), calls = before ++ call :: after →
    (∃ key ∈ call.enabled, call.key = some key) ∧
      ∀ prior : String, lastKey call.trace before = some prior → call.key ≠ some prior →
        prior ∉ call.enabled

/-- The order of the keys does not matter, a new key changes the selection only to itself,
and a key that was not selected can go. -/
structure MinimallyDisruptive (seed : String) (keys : List String) : Prop where
  perm : ∀ others : List String, others.Perm keys →
    rendezvousSelect others seed = rendezvousSelect keys seed
  add : ∀ (before after : List String) (key : String), keys = before ++ after →
    rendezvousSelect (before ++ key :: after) seed = rendezvousSelect keys seed ∨
      rendezvousSelect (before ++ key :: after) seed = some key
  remove : ∀ (before after : List String) (key : String), keys = before ++ key :: after →
    rendezvousSelect keys seed ≠ some key →
      rendezvousSelect (before ++ after) seed = rendezvousSelect keys seed

/-! ## The largest score -/

section Argmax

variable {α : Type} {f : α → Nat} {l : List α}

/-- With distinct scores nothing else has the largest one. -/
theorem argmax_eq_of_distinct (hdistinct : Set.InjOn f { a | a ∈ l }) {m : α} (hm : m ∈ l)
    (hle : ∀ a ∈ l, f a ≤ f m) : l.argmax f = some m := by
  cases hmax : l.argmax f with
  | none => exact absurd (List.argmax_eq_none.mp hmax) (List.ne_nil_of_mem hm)
  | some other =>
      have hother := List.argmax_mem hmax
      have heq := le_antisymm (hle other hother) (List.le_of_mem_argmax hm hmax)
      rw [hdistinct hother hm heq]

theorem argmax_perm (hdistinct : Set.InjOn f { a | a ∈ l }) {others : List α} (hperm : others.Perm l) :
    others.argmax f = l.argmax f := by
  cases hmax : others.argmax f with
  | none =>
      have hnil := List.argmax_eq_none.mp hmax
      rw [hnil] at hperm
      rw [hperm.symm.eq_nil]
      rfl
  | some m =>
      refine (argmax_eq_of_distinct hdistinct (hperm.mem_iff.mp (List.argmax_mem hmax)) ?_).symm
      exact fun a ha => List.le_of_mem_argmax (hperm.mem_iff.mpr ha) hmax

/-- One more element, wherever it stands. -/
theorem argmax_insert {before after : List α} (hdistinct : Set.InjOn f { a | a ∈ before ++ after })
    (new : α) : (before ++ new :: after).argmax f = (before ++ after).argmax f ∨
      (before ++ new :: after).argmax f = some new := by
  cases hmax : (before ++ new :: after).argmax f with
  | none => exact absurd (List.argmax_eq_none.mp hmax) (by simp)
  | some m =>
      by_cases hnew : m = new
      · exact .inr (by rw [hnew])
      · have hmem : ∀ a : α, a ∈ before ++ after → a ∈ before ++ new :: after := by
          intro a ha
          rcases List.mem_append.mp ha with ha | ha
          · exact List.mem_append_left _ ha
          · exact List.mem_append_right _ (List.mem_cons_of_mem _ ha)
        refine .inl (argmax_eq_of_distinct hdistinct ?_ ?_).symm
        · rcases List.mem_append.mp (List.argmax_mem hmax) with hm | hm
          · exact List.mem_append_left _ hm
          · exact List.mem_append_right _ ((List.mem_cons.mp hm).resolve_left hnew)
        · exact fun a ha => List.le_of_mem_argmax (hmem a ha) hmax

end Argmax

theorem foldl_better (seed first : String) (keys : List String) :
    (keys.foldl (better seed) (first, score seed first)).2 =
        score seed (keys.foldl (better seed) (first, score seed first)).1 ∧
      (first :: keys).argmax (fun key => (score seed key).toNat) =
        some (keys.foldl (better seed) (first, score seed first)).1 := by
  induction keys using List.reverseRecOn with
  | nil => exact ⟨rfl, rfl⟩
  | append_singleton keys key ih =>
      obtain ⟨hscore, hmax⟩ := ih
      rw [← List.cons_append, List.argmax_concat, hmax, List.foldl_append, List.foldl_cons,
        List.foldl_nil]
      generalize keys.foldl (better seed) (first, score seed first) = best at hscore ⊢
      dsimp only
      rw [← hscore]
      unfold better
      by_cases hlt : best.2 < score seed key
      · rw [if_pos hlt, if_pos (UInt64.lt_iff_toNat_lt.mp hlt)]
        exact ⟨rfl, rfl⟩
      · rw [if_neg hlt, if_neg fun hlt' => hlt (UInt64.lt_iff_toNat_lt.mpr hlt')]
        exact ⟨hscore, rfl⟩

theorem rendezvousSelect_eq (keys : List String) (seed : String) :
    rendezvousSelect keys seed = keys.argmax fun key => (score seed key).toNat := by
  cases keys with
  | nil => rfl
  | cons first keys => exact (foldl_better seed first keys).2.symm

theorem injOn_score {seed : String} {keys : List String} (h : (keys.map (score seed)).Nodup) :
    Set.InjOn (fun key => (score seed key).toNat) { key | key ∈ keys } := by
  intro key hkey other hother heq
  exact List.inj_on_of_nodup_map h hkey hother (UInt64.toNat_inj.mp heq)

theorem minimallyDisruptive {seed : String} {keys : List String}
    (h : (keys.map (score seed)).Nodup) : MinimallyDisruptive seed keys := by
  have hdistinct := injOn_score h
  refine ⟨?_, ?_, ?_⟩
  · intro others hperm
    rw [rendezvousSelect_eq, rendezvousSelect_eq, argmax_perm hdistinct hperm]
  · rintro before after key rfl
    rw [rendezvousSelect_eq, rendezvousSelect_eq]
    exact argmax_insert hdistinct key
  · rintro before after key rfl hother
    rw [rendezvousSelect_eq] at hother ⊢
    rw [rendezvousSelect_eq]
    have hsub : Set.InjOn (fun key => (score seed key).toNat) { key | key ∈ before ++ after } := by
      refine hdistinct.mono fun other hmem => ?_
      rcases List.mem_append.mp hmem with hmem | hmem
      · exact List.mem_append_left _ hmem
      · exact List.mem_append_right _ (List.mem_cons_of_mem _ hmem)
    exact ((argmax_insert hsub key).resolve_right hother).symm

/-! ## One call -/

theorem rendezvousSelect_mem {keys : List String} (h : keys ≠ []) (seed first : String) :
    (rendezvousSelect keys seed).getD first ∈ keys := by
  rw [rendezvousSelect_eq]
  cases hmax : keys.argmax fun key => (score seed key).toNat with
  | none => exact absurd (List.argmax_eq_none.mp hmax) h
  | some key => exact List.argmax_mem hmax

/-- The step lemma: a call of a trace uses an enabled key, and the cached one if it is. -/
theorem decideCredential_plain {enabled : List String} (h : enabled ≠ []) (legacyApiKey trace : String)
    (cached : Option String) :
    ∃ key ∈ enabled,
      (decideCredential (plainSnapshot legacyApiKey enabled) ⟨some trace, cached⟩).apiKey = some key ∧
        ∀ prior : String, cached = some prior → key ≠ prior → prior ∉ enabled := by
  unfold decideCredential plainSnapshot CredentialSnapshot.kind
  dsimp only
  rw [if_neg (by simp), if_neg (by simp)]
  cases enabled with
  | nil => exact absurd rfl h
  | cons first keys =>
      cases keys with
      | nil =>
          refine ⟨first, List.mem_singleton_self first, rfl, fun prior _ hne hmem => hne ?_⟩
          exact (List.mem_singleton.mp hmem).symm
      | cons second keys =>
          have hselect := rendezvousSelect_mem h trace first
          unfold selectMultiKey
          cases cached with
          | none => exact ⟨_, hselect, rfl, fun prior hprior => absurd hprior (by simp)⟩
          | some cached =>
              dsimp only
              by_cases hcached : cached ∈ first :: second :: keys
              · rw [if_pos hcached]
                exact ⟨cached, hcached, rfl, fun prior hprior hne =>
                  absurd (Option.some.inj hprior) hne⟩
              · rw [if_neg hcached]
                refine ⟨_, hselect, rfl, fun prior hprior _ => ?_⟩
                rw [← Option.some.inj hprior]
                exact hcached

/-! ## Every run -/

theorem lastKey_append (trace : String) (calls : List KeyCall) (call : KeyCall) :
    lastKey trace (calls ++ [call]) =
      if call.trace = trace then call.key else lastKey trace calls := by
  unfold lastKey
  rw [List.filter_append]
  by_cases h : call.trace = trace
  · rw [List.filter_cons_of_pos (by simpa using h), if_pos h]
    simp
  · rw [List.filter_cons_of_neg (by simpa using h), if_neg h]
    simp

theorem stickyCalls_append {calls : List KeyCall} {last : KeyCall} (h : StickyCalls calls)
    (hmem : ∃ key ∈ last.enabled, last.key = some key)
    (hkeep : ∀ prior : String, lastKey last.trace calls = some prior → last.key ≠ some prior →
      prior ∉ last.enabled) : StickyCalls (calls ++ [last]) := by
  intro before call after heq
  rcases List.eq_nil_or_concat after with rfl | ⟨after, final, rfl⟩
  · obtain ⟨rfl, hlast⟩ := List.append_inj' heq rfl
    obtain rfl := List.singleton_inj.mp hlast
    exact ⟨hmem, hkeep⟩
  · rw [List.concat_eq_append, ← List.cons_append, ← List.append_assoc] at heq
    exact h before call after (List.append_inj' heq rfl).1

/-- The cache holds the key that each trace used last, and the calls so far are sticky. -/
def KeyInv (s : KeyState) : Prop :=
  (∀ trace : String, s.cache trace = lastKey trace s.calls) ∧
    ((∀ call ∈ s.calls, call.enabled ≠ []) → StickyCalls s.calls)

theorem inductive_inv (keys : List String) (legacyApiKey : String) :
    (keyRuns keys legacyApiKey).Inductive KeyInv where
  init := by
    refine ⟨fun _ => rfl, fun _ before call after heq => ?_⟩
    exact absurd heq (by simp [keyRuns])
  step := by
    intro s event hs
    cases event with
    | disable key => exact hs
    | enable key => exact hs
    | call trace =>
        obtain ⟨hcache, hsticky⟩ := hs
        refine ⟨fun other => ?_, fun henabled => ?_⟩
        · show Function.update s.cache trace _ other = lastKey other (s.calls ++ [_])
          rw [lastKey_append, Function.update_apply]
          by_cases hother : other = trace
          · rw [if_pos hother, if_pos hother.symm]
          · rw [if_neg hother, if_neg (Ne.symm hother), hcache other]
        · have hlast := henabled _ (List.mem_append_right s.calls (List.mem_singleton_self _))
          obtain ⟨key, hkey, hdecision, hkeep⟩ :=
            decideCredential_plain hlast legacyApiKey trace (s.cache trace)
          refine stickyCalls_append
            (hsticky fun call hcall => henabled call (List.mem_append_left _ hcall)) ⟨key, hkey, hdecision⟩
            fun prior hprior hne => ?_
          refine hkeep prior ((hcache trace).trans hprior) fun heq => hne ?_
          rw [← heq]
          exact hdecision

end Conduit.Channels
