import Conduit.Access.Rbac
import Conduit.Base.Text
import Mathlib

/-!
# Project authority stays in its project

A decision in the context of a project reads the scope set at a handful of
strings (`commonKeys`, `memberKeys`, `apiKeys`). Split at the colons, the scopes
of another project differ from each of them, so a decision does not change with
them; likewise for API-key scopes and a user, and for the membership and role
scopes and a scope no project role may carry. The one exception is the wildcard
as the required scope, which asks for the ownership of the project.
-/

namespace Conduit.Access.Rbac

open Base.Text

/-! ## Fields of a scope -/

def ColonFree (text : String) : Prop := ':' ∉ text.toList

instance (text : String) : Decidable (ColonFree text) := inferInstanceAs (Decidable (¬ _))

/-- A scope split at its colons. -/
def fields (scope : String) : List String := splitOn ':' scope

theorem fields_of_colonFree {text : String} (h : ColonFree text) : fields text = [text] := by
  unfold fields splitOn
  rw [List.splitOn_eq_singleton h]
  simp

theorem fields_ne_nil (text : String) : fields text ≠ [] := by
  unfold fields splitOn
  simp [List.splitOn_ne_nil]

theorem fields_append {text : String} (h : ColonFree text) (rest : String) :
    fields (text ++ ":" ++ rest) = text :: fields rest := by
  have hlist : (text ++ ":" ++ rest).toList = text.toList ++ ':' :: rest.toList := by
    simp
  have hfirst := fields_of_colonFree h
  unfold fields splitOn at *
  rw [hlist, List.splitOn_append_cons_self, List.map_append, hfirst]
  rfl

section Fields

variable {projectId : String} (h : ColonFree projectId) (scope : String)
include h

theorem fields_project :
    fields (Scope.project projectId scope) = "project" :: projectId :: fields scope := by
  have hscope : Scope.project projectId scope =
      "project" ++ ":" ++ (projectId ++ ":" ++ scope) := by
    rw [← String.toList_inj]
    simp [Scope.project]
  rw [hscope, fields_append (by decide), fields_append h]

theorem fields_projectMembership :
    fields (Scope.projectMembership projectId scope) =
      "project" :: projectId :: "member" :: fields scope := by
  have hscope : Scope.projectMembership projectId scope =
      "project" ++ ":" ++ (projectId ++ ":" ++ ("member" ++ ":" ++ scope)) := by
    rw [← String.toList_inj]
    simp [Scope.projectMembership]
  rw [hscope, fields_append (by decide), fields_append h, fields_append (by decide)]

theorem fields_projectRole :
    fields (Scope.projectRole projectId scope) =
      "project" :: projectId :: "role" :: fields scope := by
  have hscope : Scope.projectRole projectId scope =
      "project" ++ ":" ++ (projectId ++ ":" ++ ("role" ++ ":" ++ scope)) := by
    rw [← String.toList_inj]
    simp [Scope.projectRole]
  rw [hscope, fields_append (by decide), fields_append h, fields_append (by decide)]

theorem fields_apiKeyProject :
    fields (Scope.apiKeyProject projectId scope) =
      "api_key" :: "project" :: projectId :: fields scope := by
  have hscope : Scope.apiKeyProject projectId scope =
      "api_key" ++ ":" ++ ("project" ++ ":" ++ (projectId ++ ":" ++ scope)) := by
    unfold Scope.apiKeyProject
    rw [show "api_key:project:" = "api_key" ++ ":" ++ ("project" ++ ":") by decide]
    simp only [String.append_assoc]
  rw [hscope, fields_append (by decide), fields_append (by decide), fields_append h]

end Fields

theorem fields_systemRole (scope : String) :
    fields (Scope.systemRole scope) = "system" :: "role" :: fields scope := by
  have hscope : Scope.systemRole scope = "system" ++ ":" ++ ("role" ++ ":" ++ scope) := by
    rw [← String.toList_inj]
    simp [Scope.systemRole]
  rw [hscope, fields_append (by decide), fields_append (by decide)]

theorem fields_apiKey (scope : String) :
    fields (Scope.apiKey scope) = "api_key" :: "scope" :: fields scope := by
  have hscope : Scope.apiKey scope = "api_key" ++ ":" ++ ("scope" ++ ":" ++ scope) := by
    rw [← String.toList_inj]
    simp [Scope.apiKey]
  rw [hscope, fields_append (by decide), fields_append (by decide)]

theorem fields_systemAdmin : fields Slug.systemAdmin = ["system", "admin"] := by
  have hslug : Slug.systemAdmin = "system" ++ ":" ++ "admin" := rfl
  rw [hslug, fields_append (by decide), fields_of_colonFree (by decide)]

theorem fields_wildcard : fields Slug.wildcard = ["*"] := fields_of_colonFree (by decide)

/-! ## What a decision looks up -/

/-- What is looked up for every principal and scope. -/
def commonKeys (projectId scope : String) : List String :=
  [Scope.project projectId scope, Slug.wildcard, scope, Slug.systemAdmin, Scope.systemRole scope]

def memberKeys (projectId scope : String) : List String :=
  [Scope.projectMembership projectId scope, Scope.projectMembership projectId Slug.wildcard,
    Scope.projectRole projectId scope, Scope.projectRole projectId Slug.wildcard]

def apiKeys (projectId scope : String) : List String :=
  [Scope.apiKeyProject projectId scope, Scope.apiKey scope]

/-- What is looked up, given whom for. -/
def keys (kind : PrincipalKind) (projectId scope : String) : List String :=
  commonKeys projectId scope ++
    (if scope ≠ Slug.wildcard ∧ ¬ supportsProjectRole scope then [] else
      memberKeys projectId scope) ++
    if kind = .apiKey then apiKeys projectId scope else []

/-- The principal with other scopes. -/
def Principal.withScopes (principal : Principal) (scopes : ScopeSet) : Principal :=
  { principal with scopes := scopes }

theorem get_congr {scopes scopes' : ScopeSet} {key : String}
    (h : key ∈ scopes ↔ key ∈ scopes') : ScopeSet.get scopes key = ScopeSet.get scopes' key := by
  unfold ScopeSet.get
  by_cases hkey : key ∈ scopes
  · rw [if_pos hkey, if_pos (h.mp hkey)]
  · rw [if_neg hkey, if_neg fun hmem => hkey (h.mpr hmem)]

/-- Sets that agree on what is looked up give one decision. -/
theorem principalHasProjectScope_congr (principal : Principal) (projectId scope : String)
    {scopes scopes' : ScopeSet}
    (h : ∀ key ∈ keys principal.kind projectId scope, key ∈ scopes ↔ key ∈ scopes') :
    principalHasProjectScope (principal.withScopes scopes) projectId scope =
      principalHasProjectScope (principal.withScopes scopes') projectId scope := by
  have hget : ∀ key ∈ keys principal.kind projectId scope,
      ScopeSet.get scopes key = ScopeSet.get scopes' key := fun key hkey => get_congr (h key hkey)
  simp only [keys, List.mem_append] at hget
  have hcommon := fun key hkey => hget key (.inl (.inl hkey))
  simp only [commonKeys, List.mem_cons, List.not_mem_nil, or_false, forall_eq_or_imp,
    forall_eq] at hcommon
  obtain ⟨hproject, hwildcard, hscope, hadmin, hrole⟩ := hcommon
  have hmatched : ScopeSet.matched scopes scope = ScopeSet.matched scopes' scope := by
    unfold ScopeSet.matched
    rw [hwildcard, hscope]
  have hsystem : ScopeSet.matchedSystemRoleScope scopes scope =
      ScopeSet.matchedSystemRoleScope scopes' scope := by
    unfold ScopeSet.matchedSystemRoleScope ScopeSet.matched
    rw [hwildcard, hadmin, hrole]
  have hdirect : ScopeSet.matchedProjectScope scopes projectId scope =
      ScopeSet.matchedProjectScope scopes' projectId scope := by
    unfold ScopeSet.matchedProjectScope
    rw [hproject, hmatched]
  have hmember : ScopeSet.matchedProjectMembershipScope scopes projectId scope =
      ScopeSet.matchedProjectMembershipScope scopes' projectId scope ∧
      ScopeSet.matchedProjectRoleScope scopes projectId scope =
        ScopeSet.matchedProjectRoleScope scopes' projectId scope := by
    unfold ScopeSet.matchedProjectMembershipScope ScopeSet.matchedProjectRoleScope
    by_cases hunsupported : scope ≠ Slug.wildcard ∧ ¬ supportsProjectRole scope
    · simp only [if_pos hunsupported, and_self]
    · have hkeys := fun key hkey => hget key (.inl (.inr hkey))
      rw [if_neg hunsupported] at hkeys
      simp only [memberKeys, List.mem_cons, List.not_mem_nil, or_false, forall_eq_or_imp,
        forall_eq] at hkeys
      obtain ⟨hmember, hanyMember, hrole, hanyRole⟩ := hkeys
      rw [if_neg hunsupported, if_neg hunsupported, if_neg hunsupported, if_neg hunsupported,
        hmember, hanyMember, hrole, hanyRole]
      exact ⟨rfl, rfl⟩
  have hapi : (if principal.kind = .apiKey then
        ScopeSet.matchedApiKeyProjectScope scopes projectId scope else none) =
      if principal.kind = .apiKey then
        ScopeSet.matchedApiKeyProjectScope scopes' projectId scope else none := by
    by_cases hkind : principal.kind = .apiKey
    · have hkeys := fun key hkey => hget key (.inr hkey)
      rw [if_pos hkind] at hkeys
      simp only [apiKeys, List.mem_cons, List.not_mem_nil, or_false, forall_eq_or_imp,
        forall_eq] at hkeys
      unfold ScopeSet.matchedApiKeyProjectScope ScopeSet.matchedApiKeyScope
      rw [if_pos hkind, if_pos hkind, hkeys.1, hkeys.2]
    · rw [if_neg hkind, if_neg hkind]
  unfold principalHasProjectScope Principal.withScopes
  simp only [hdirect, hsystem, hmember.1, hmember.2, hapi]

theorem get_isSome (scopes : ScopeSet) (key : String) :
    (ScopeSet.get scopes key).isSome ↔ key ∈ scopes := by
  unfold ScopeSet.get
  by_cases hkey : key ∈ scopes <;> simp [hkey]

theorem orElse_get_isSome (first : Option String) (scopes : ScopeSet) (key : String) :
    (first.orElse fun _ => ScopeSet.get scopes key).isSome ↔ first.isSome ∨ key ∈ scopes := by
  cases first with
  | none => simpa using get_isSome scopes key
  | some found => simp

theorem matched_isSome (scopes : ScopeSet) (key : String) :
    (ScopeSet.matched scopes key).isSome ↔ Slug.wildcard ∈ scopes ∨ key ∈ scopes := by
  unfold ScopeSet.matched ScopeSet.get
  by_cases hwildcard : Slug.wildcard ∈ scopes <;> by_cases hkey : key ∈ scopes <;>
    simp [hwildcard, hkey]

/-- A principal is allowed when one of the matchers found something. -/
theorem isAllowed_iff_matched (principal : Principal) (projectId scope : String) :
    (principalHasProjectScope principal projectId scope).isAllowed ↔
      (principal.scopes.matchedProjectScope projectId scope).isSome ∨
      (principal.scopes.matchedSystemRoleScope scope).isSome ∨
      ((principal.scopes.matchedProjectMembershipScope projectId scope).isSome ∨
        (principal.scopes.matchedProjectRoleScope projectId scope).isSome) ∨
      (if principal.kind = .apiKey then
        principal.scopes.matchedApiKeyProjectScope projectId scope else none).isSome := by
  unfold principalHasProjectScope
  cases principal.scopes.matchedProjectScope projectId scope with
  | some found => simp [allowMatched, PermissionDecision.isAllowed]
  | none =>
  cases principal.scopes.matchedSystemRoleScope scope with
  | some found => simp [allowMatched, PermissionDecision.isAllowed]
  | none =>
  cases principal.scopes.matchedProjectMembershipScope projectId scope with
  | some found => simp [allowMatched, PermissionDecision.isAllowed]
  | none =>
  cases principal.scopes.matchedProjectRoleScope projectId scope with
  | some found => simp [allowMatched, PermissionDecision.isAllowed]
  | none =>
  cases (if principal.kind = .apiKey then
      principal.scopes.matchedApiKeyProjectScope projectId scope else none) with
  | some found => simp [allowMatched, PermissionDecision.isAllowed]
  | none => simp [PermissionDecision.isAllowed]

/-- The wildcard is looked up by two matchers. -/
theorem matchers_or (project wildcard scope admin role member api : Prop) :
    (project ∨ wildcard ∨ scope) ∨ ((wildcard ∨ admin) ∨ role) ∨ member ∨ api ↔
      ((project ∨ wildcard ∨ scope ∨ admin ∨ role) ∨ member) ∨ api := by
  tauto

/-- A principal is allowed when one of what is looked up is there. -/
theorem principalHasProjectScope_isAllowed (principal : Principal) (projectId scope : String) :
    (principalHasProjectScope principal projectId scope).isAllowed ↔
      ∃ key ∈ keys principal.kind projectId scope, key ∈ principal.scopes := by
  have hdirect : (principal.scopes.matchedProjectScope projectId scope).isSome ↔
      Scope.project projectId scope ∈ principal.scopes ∨
        Slug.wildcard ∈ principal.scopes ∨ scope ∈ principal.scopes := by
    unfold ScopeSet.matchedProjectScope ScopeSet.get
    by_cases hproject : Scope.project projectId scope ∈ principal.scopes
    · simp [hproject]
    · simpa [hproject] using matched_isSome principal.scopes scope
  have hsystem : (principal.scopes.matchedSystemRoleScope scope).isSome ↔
      (Slug.wildcard ∈ principal.scopes ∨ Slug.systemAdmin ∈ principal.scopes) ∨
        Scope.systemRole scope ∈ principal.scopes := by
    unfold ScopeSet.matchedSystemRoleScope
    rw [orElse_get_isSome, matched_isSome]
  have hapi : (if principal.kind = .apiKey then
      principal.scopes.matchedApiKeyProjectScope projectId scope else none).isSome ↔
      ∃ key ∈ (if principal.kind = .apiKey then apiKeys projectId scope else []),
        key ∈ principal.scopes := by
    by_cases hkind : principal.kind = .apiKey
    · rw [if_pos hkind, if_pos hkind]
      unfold ScopeSet.matchedApiKeyProjectScope ScopeSet.matchedApiKeyScope
      rw [orElse_get_isSome, get_isSome]
      simp [apiKeys]
    · rw [if_neg hkind, if_neg hkind]
      simp
  have hmember : (principal.scopes.matchedProjectMembershipScope projectId scope).isSome ∨
      (principal.scopes.matchedProjectRoleScope projectId scope).isSome ↔
      ∃ key ∈ (if scope ≠ Slug.wildcard ∧ ¬ supportsProjectRole scope then [] else
        memberKeys projectId scope), key ∈ principal.scopes := by
    unfold ScopeSet.matchedProjectMembershipScope ScopeSet.matchedProjectRoleScope
    by_cases hunsupported : scope ≠ Slug.wildcard ∧ ¬ supportsProjectRole scope
    · rw [if_pos hunsupported, if_pos hunsupported, if_pos hunsupported]
      simp
    · rw [if_neg hunsupported, if_neg hunsupported, if_neg hunsupported, orElse_get_isSome,
        orElse_get_isSome, get_isSome, get_isSome]
      simp [memberKeys, or_assoc]
  have hcommon : (∃ key ∈ commonKeys projectId scope, key ∈ principal.scopes) ↔
      Scope.project projectId scope ∈ principal.scopes ∨ Slug.wildcard ∈ principal.scopes ∨
        scope ∈ principal.scopes ∨ Slug.systemAdmin ∈ principal.scopes ∨
          Scope.systemRole scope ∈ principal.scopes := by
    simp only [commonKeys, List.exists_mem_cons_iff, List.not_mem_nil, false_and, exists_false,
      or_false]
  have hkeys : (∃ key ∈ keys principal.kind projectId scope, key ∈ principal.scopes) ↔
      ((∃ key ∈ commonKeys projectId scope, key ∈ principal.scopes) ∨
        ∃ key ∈ (if scope ≠ Slug.wildcard ∧ ¬ supportsProjectRole scope then [] else
          memberKeys projectId scope), key ∈ principal.scopes) ∨
        ∃ key ∈ (if principal.kind = .apiKey then apiKeys projectId scope else []),
          key ∈ principal.scopes := by
    unfold keys
    simp only [List.mem_append, or_and_right, exists_or]
  rw [isAllowed_iff_matched, hdirect, hsystem, hmember, hapi, hkeys, hcommon, matchers_or]

/-! ## Checks -/

/-- The decisions that are taken in a project. -/
inductive Check
  | hasProjectScope
  | query
  | mutation (op : MutationOp) (target : MutationTarget)

/-- The decision in the context of a project. -/
def Check.decide (check : Check) (principal : Principal) (projectId scope : String) :
    PermissionDecision :=
  let ctx : RequestContext := ⟨some principal, some projectId⟩
  match check with
  | .hasProjectScope => Rbac.hasProjectScope ctx scope
  | .query => PolicyGuard.checkQuery ctx scope
  | .mutation op target => PolicyGuard.checkMutation ctx scope op target

theorem Check.decide_query (principal : Principal) (projectId scope : String) :
    Check.query.decide principal projectId scope =
      PolicyGuard.checkQuery ⟨some principal, some projectId⟩ scope := rfl

theorem Check.decide_mutation (op : MutationOp) (target : MutationTarget) (principal : Principal)
    (projectId scope : String) :
    (Check.mutation op target).decide principal projectId scope =
      PolicyGuard.checkMutation ⟨some principal, some projectId⟩ scope op target := rfl

/-- A user or an API key that is not an owner. -/
structure Ordinary (principal : Principal) : Prop where
  kind : principal.kind = .user ∨ principal.kind = .apiKey
  notOwner : principal.isOwner = false

theorem Ordinary.withScopes {principal : Principal} (h : Ordinary principal) (scopes : ScopeSet) :
    Ordinary (principal.withScopes scopes) := ⟨h.kind, h.notOwner⟩

theorem Ordinary.bypassDecision {principal : Principal} (h : Ordinary principal) :
    Rbac.bypassDecision principal = none := by
  unfold Rbac.bypassDecision
  rcases h.kind with hkind | hkind <;> rw [hkind]

theorem Ordinary.bypassOrOwner {principal : Principal} (h : Ordinary principal) :
    PolicyGuard.bypassOrOwner principal = none := by
  unfold PolicyGuard.bypassOrOwner
  rcases h.kind with hkind | hkind <;> rw [hkind] <;> simp [h.notOwner]

/-- The project of the principal, then its scopes. -/
theorem hasProjectScope_eq {principal : Principal} (h : Ordinary principal)
    (projectId scope : String) :
    hasProjectScope ⟨some principal, some projectId⟩ scope =
      if principal.projectId.any (· ≠ projectId) then
        .deny "principal project does not match request project"
      else principalHasProjectScope principal projectId scope := by
  unfold hasProjectScope
  simp only [h.bypassDecision, h.notOwner, Bool.false_eq_true, if_false]

/-- A query by the project's scopes, with a denial of its own for a user. -/
theorem checkQuery_eq {principal : Principal} (h : Ordinary principal)
    (projectId scope : String) :
    PolicyGuard.checkQuery ⟨some principal, some projectId⟩ scope =
      if (hasProjectScope ⟨some principal, some projectId⟩ scope).isAllowed ∨
          principal.kind = .apiKey then
        hasProjectScope ⟨some principal, some projectId⟩ scope
      else .deny ("required scope `" ++ scope ++ "` is missing") := by
  unfold PolicyGuard.checkQuery
  simp only [h.bypassOrOwner]
  rcases h.kind with hkind | hkind
  · simp [hkind, PolicyGuard.checkUserQuery, PolicyGuard.scopeDecision]
  · simp [hkind, PolicyGuard.checkApiKeyQuery]

/-- A mutation by the project's scopes, then by its target. -/
theorem checkMutation_eq {principal : Principal} (h : Ordinary principal)
    (projectId scope : String) (op : MutationOp) (target : MutationTarget) :
    PolicyGuard.checkMutation ⟨some principal, some projectId⟩ scope op target =
      if (hasProjectScope ⟨some principal, some projectId⟩ scope).isAllowed then
        if principal.kind = .user then
          PolicyGuard.verifyUserTarget ⟨some principal, some projectId⟩ op target
        else PolicyGuard.verifyApiKeyTarget principal op target
      else hasProjectScope ⟨some principal, some projectId⟩ scope := by
  unfold PolicyGuard.checkMutation PolicyGuard.scopeDecision
  simp only [h.bypassOrOwner, Option.isSome_some, if_true]
  by_cases hallowed : (hasProjectScope ⟨some principal, some projectId⟩ scope).isAllowed
  · rcases h.kind with hkind | hkind <;> simp [hallowed, hkind]
  · simp [hallowed]

/-- Only the decision by the project's scopes reads the scopes. -/
theorem Check.decide_congr (check : Check) {principal : Principal} (h : Ordinary principal)
    {projectId scope : String} {scopes scopes' : ScopeSet}
    (hscopes : principalHasProjectScope (principal.withScopes scopes) projectId scope =
      principalHasProjectScope (principal.withScopes scopes') projectId scope) :
    check.decide (principal.withScopes scopes) projectId scope =
      check.decide (principal.withScopes scopes') projectId scope := by
  have hproject : Rbac.hasProjectScope ⟨some (principal.withScopes scopes), some projectId⟩ scope =
      Rbac.hasProjectScope ⟨some (principal.withScopes scopes'), some projectId⟩ scope := by
    rw [hasProjectScope_eq (h.withScopes _), hasProjectScope_eq (h.withScopes _), hscopes]
    rfl
  cases check with
  | hasProjectScope => exact hproject
  | query =>
      rw [Check.decide_query, Check.decide_query, checkQuery_eq (h.withScopes _), checkQuery_eq (h.withScopes _), hproject]
      rfl
  | mutation op target =>
      rw [Check.decide_mutation, Check.decide_mutation, checkMutation_eq (h.withScopes _),
        checkMutation_eq (h.withScopes _), hproject]
      rfl

/-- Where the project's scopes allow, what allowed before still does. -/
theorem Check.decide_mono (check : Check) {principal : Principal} (h : Ordinary principal)
    {projectId scope : String} {scopes scopes' : ScopeSet}
    (hscopes : (principalHasProjectScope (principal.withScopes scopes) projectId scope).isAllowed →
      (principalHasProjectScope (principal.withScopes scopes') projectId scope).isAllowed)
    (hallowed : (check.decide (principal.withScopes scopes) projectId scope).isAllowed) :
    (check.decide (principal.withScopes scopes') projectId scope).isAllowed := by
  have hproject :
      (Rbac.hasProjectScope ⟨some (principal.withScopes scopes), some projectId⟩ scope).isAllowed →
      (Rbac.hasProjectScope ⟨some (principal.withScopes scopes'), some projectId⟩
        scope).isAllowed := by
    rw [hasProjectScope_eq (h.withScopes _), hasProjectScope_eq (h.withScopes _)]
    show (if principal.projectId.any (· ≠ projectId) then _ else _ : PermissionDecision).isAllowed →
      (if principal.projectId.any (· ≠ projectId) then _ else _ : PermissionDecision).isAllowed
    by_cases hother : principal.projectId.any (· ≠ projectId)
    · rw [if_pos hother, if_pos hother]
      exact id
    · rw [if_neg hother, if_neg hother]
      exact hscopes
  cases check with
  | hasProjectScope => exact hproject hallowed
  | query =>
      have hquery : ∀ scopes'', (Check.query.decide (principal.withScopes scopes'') projectId
          scope).isAllowed ↔ (Rbac.hasProjectScope
            ⟨some (principal.withScopes scopes''), some projectId⟩ scope).isAllowed := by
        intro scopes''
        rw [Check.decide_query, checkQuery_eq (h.withScopes _)]
        split_ifs with hdecided
        · exact Iff.rfl
        · rw [not_or] at hdecided
          exact ⟨fun hdeny => by simp [PermissionDecision.isAllowed] at hdeny,
            fun hallow => absurd hallow hdecided.1⟩
      rw [hquery] at hallowed ⊢
      exact hproject hallowed
  | mutation op target =>
      rw [Check.decide_mutation, checkMutation_eq (h.withScopes _)] at hallowed ⊢
      by_cases hfirst : (Rbac.hasProjectScope ⟨some (principal.withScopes scopes), some projectId⟩
          scope).isAllowed
      · rw [if_pos hfirst] at hallowed
        rw [if_pos (hproject hfirst)]
        exact hallowed
      · rw [if_neg hfirst] at hallowed
        exact absurd hallowed hfirst

/-! ## Kinds of scopes -/

/-- A scope of another project. -/
def OfOtherProject (projectId scope : String) : Prop :=
  ∃ other granted, ColonFree other ∧ other ≠ projectId ∧
    scope ∈ [Scope.project other granted, Scope.projectMembership other granted,
      Scope.projectRole other granted, Scope.apiKeyProject other granted]

def MembershipOrRole (projectId scope : String) : Prop :=
  ∃ granted, scope = Scope.projectMembership projectId granted ∨
    scope = Scope.projectRole projectId granted

def ApiKeyPrefixed (scope : String) : Prop := ∃ rest, scope = "api_key:" ++ rest

/-- The sets differ in scopes of a kind only: some were added, some removed. -/
def DifferOnlyIn (kind : String → Prop) (scopes scopes' : ScopeSet) : Prop :=
  ∀ scope, ¬ kind scope → (scope ∈ scopes ↔ scope ∈ scopes')

/-- A required scope: a slug without colons, or the one that has one. -/
def Required (scope : String) : Prop := ColonFree scope ∨ scope = Slug.systemAdmin

section Keys

variable {projectId scope : String} (hproject : ColonFree projectId) (hscope : Required scope)

include hscope in
theorem fields_required : fields scope = [scope] ∨ fields scope = ["system", "admin"] := by
  rcases hscope with h | rfl
  · exact .inl (fields_of_colonFree h)
  · exact .inr fields_systemAdmin

include hproject

theorem fields_keys {kind : PrincipalKind} {key : String} (h : key ∈ keys kind projectId scope) :
    key ∈ commonKeys projectId scope ∨
      (∃ granted role, role ∈ ["member", "role"] ∧ ¬ (scope ≠ Slug.wildcard ∧
        ¬ supportsProjectRole scope) ∧ fields key = "project" :: projectId :: role :: granted) ∨
      kind = .apiKey ∧ (fields key = "api_key" :: "project" :: projectId :: fields scope ∨
        fields key = "api_key" :: "scope" :: fields scope) := by
  rcases List.mem_append.mp h with h | h
  · rcases List.mem_append.mp h with h | h
    · exact .inl h
    · by_cases hunsupported : scope ≠ Slug.wildcard ∧ ¬ supportsProjectRole scope
      · rw [if_pos hunsupported] at h
        exact absurd h List.not_mem_nil
      · rw [if_neg hunsupported] at h
        simp only [memberKeys, List.mem_cons, List.not_mem_nil, or_false] at h
        rcases h with rfl | rfl | rfl | rfl
        · exact .inr (.inl ⟨_, _, by simp, hunsupported, fields_projectMembership hproject _⟩)
        · exact .inr (.inl ⟨_, _, by simp, hunsupported, fields_projectMembership hproject _⟩)
        · exact .inr (.inl ⟨_, _, by simp, hunsupported, fields_projectRole hproject _⟩)
        · exact .inr (.inl ⟨_, _, by simp, hunsupported, fields_projectRole hproject _⟩)
  · by_cases hkind : kind = .apiKey
    · rw [if_pos hkind] at h
      simp only [apiKeys, List.mem_cons, List.not_mem_nil, or_false] at h
      rcases h with rfl | rfl
      · exact .inr (.inr ⟨hkind, .inl (fields_apiKeyProject hproject _)⟩)
      · exact .inr (.inr ⟨hkind, .inr (fields_apiKey _)⟩)
    · rw [if_neg hkind] at h
      exact absurd h List.not_mem_nil

include hscope

/-- The fields of what is looked up for everyone. -/
theorem fields_commonKeys {key : String} (h : key ∈ commonKeys projectId scope) :
    (∃ word, fields key = [word]) ∨ (∃ rest, fields key = "system" :: rest) ∨
      (∃ word, fields key = ["project", projectId, word]) ∨
      fields key = ["project", projectId, "system", "admin"] := by
  have hrequired := fields_required hscope
  simp only [commonKeys, List.mem_cons, List.not_mem_nil, or_false] at h
  rcases h with rfl | rfl | rfl | rfl | rfl
  · rw [fields_project hproject]
    rcases hrequired with hrequired | hrequired <;> rw [hrequired]
    · exact .inr (.inr (.inl ⟨_, rfl⟩))
    · exact .inr (.inr (.inr rfl))
  · exact .inl ⟨_, fields_wildcard⟩
  · rcases hrequired with hrequired | hrequired <;> rw [hrequired]
    · exact .inl ⟨_, rfl⟩
    · exact .inr (.inl ⟨_, rfl⟩)
  · exact .inr (.inl ⟨_, fields_systemAdmin⟩)
  · exact .inr (.inl ⟨_, fields_systemRole _⟩)

/-- No scope of another project is looked up. -/
theorem not_ofOtherProject {kind : PrincipalKind} {key : String}
    (h : key ∈ keys kind projectId scope) : ¬ OfOtherProject projectId key := by
  rintro ⟨other, granted, hother, hne, hkey⟩
  have hfields : (∃ rest, fields key = "project" :: other :: rest) ∨
      ∃ rest, fields key = "api_key" :: "project" :: other :: rest := by
    simp only [List.mem_cons, List.not_mem_nil, or_false] at hkey
    rcases hkey with rfl | rfl | rfl | rfl
    · exact .inl ⟨_, fields_project hother _⟩
    · exact .inl ⟨_, fields_projectMembership hother _⟩
    · exact .inl ⟨_, fields_projectRole hother _⟩
    · exact .inr ⟨_, fields_apiKeyProject hother _⟩
  have hne' : projectId ≠ other := fun heq => hne heq.symm
  rcases fields_keys hproject h with hcommon | ⟨_, _, -, -, hmember⟩ | ⟨-, hapi | hapi⟩
  · rcases fields_commonKeys hproject hscope hcommon with ⟨_, hkey⟩ | ⟨_, hkey⟩ | ⟨_, hkey⟩ | hkey
    all_goals
      rw [hkey] at hfields
      simp [hne'] at hfields
  · rw [hmember] at hfields
    simp [hne'] at hfields
  · rw [hapi] at hfields
    simp [hne'] at hfields
  · rw [hapi] at hfields
    simp at hfields

/-- For a scope no project role carries, no membership or role is looked up. -/
theorem not_membershipOrRole (hunsupported : supportsProjectRole scope = false)
    (hwildcard : scope ≠ Slug.wildcard) {kind : PrincipalKind} {key : String}
    (h : key ∈ keys kind projectId scope) : ¬ MembershipOrRole projectId key := by
  rintro ⟨granted, hkey⟩
  have hfields : ∃ first rest, fields key = "project" :: projectId :: first :: rest ∧
      first ∈ ["member", "role"] ∧ rest ≠ [] := by
    rcases hkey with rfl | rfl
    · exact ⟨_, _, fields_projectMembership hproject _, by simp, fields_ne_nil _⟩
    · exact ⟨_, _, fields_projectRole hproject _, by simp, fields_ne_nil _⟩
  obtain ⟨first, rest, hfields, hfirst, hrest⟩ := hfields
  rcases fields_keys hproject h with hcommon | ⟨_, _, -, hsupported, -⟩ | ⟨-, hapi | hapi⟩
  · rcases fields_commonKeys hproject hscope hcommon with ⟨_, hkey⟩ | ⟨_, hkey⟩ | ⟨_, hkey⟩ | hkey
    · rw [hkey] at hfields
      simp at hfields
    · rw [hkey] at hfields
      simp at hfields
    · rw [hkey] at hfields
      simp only [List.cons.injEq, true_and] at hfields
      exact hrest hfields.2.symm
    · rw [hkey] at hfields
      simp only [List.cons.injEq, true_and] at hfields
      rw [← hfields.1] at hfirst
      simp at hfirst
  · exact hsupported ⟨hwildcard, by simp [hunsupported]⟩
  · rw [hapi] at hfields
    simp at hfields
  · rw [hapi] at hfields
    simp at hfields

/-- For a user no API-key scope is looked up. -/
theorem not_apiKeyPrefixed {key : String} (h : key ∈ keys .user projectId scope) :
    ¬ ApiKeyPrefixed key := by
  rintro ⟨rest, rfl⟩
  have hfields : fields ("api_key:" ++ rest) = "api_key" :: fields rest := by
    rw [show "api_key:" = "api_key" ++ ":" by decide, fields_append (by decide)]
  have hrest := fields_ne_nil rest
  rcases fields_keys hproject h with hcommon | ⟨_, _, -, -, hmember⟩ | ⟨hkind, -⟩
  · rcases fields_commonKeys hproject hscope hcommon with ⟨_, hkey⟩ | ⟨_, hkey⟩ | ⟨_, hkey⟩ | hkey
    · rw [hkey] at hfields
      simp only [List.cons.injEq] at hfields
      exact hrest hfields.2.symm
    all_goals
      rw [hkey] at hfields
      simp at hfields
  · rw [hmember] at hfields
    simp at hfields
  · exact PrincipalKind.noConfusion hkind

end Keys

/-! ## The authority of a project -/

/-- **Project authority stays in its project.** In the context of a project no
decision changes with the scopes of other projects; none on a scope that no
project role carries changes with the project's own membership and role scopes;
none for a user changes with API-key scopes; an API key of another project is
denied; and further scopes never turn an allow into a deny. -/
theorem project_authority (check : Check) (principal : Principal) (hordinary : Ordinary principal)
    (projectId scope : String) (hproject : ColonFree projectId) (hscope : Required scope) :
    (∀ scopes scopes', DifferOnlyIn (OfOtherProject projectId) scopes scopes' →
      check.decide (principal.withScopes scopes) projectId scope =
        check.decide (principal.withScopes scopes') projectId scope) ∧
    (supportsProjectRole scope = false → scope ≠ Slug.wildcard →
      ∀ scopes scopes', DifferOnlyIn (MembershipOrRole projectId) scopes scopes' →
        check.decide (principal.withScopes scopes) projectId scope =
          check.decide (principal.withScopes scopes') projectId scope) ∧
    (principal.kind = .user →
      ∀ scopes scopes', DifferOnlyIn ApiKeyPrefixed scopes scopes' →
        check.decide (principal.withScopes scopes) projectId scope =
          check.decide (principal.withScopes scopes') projectId scope) ∧
    (principal.kind = .apiKey → ∀ own, principal.projectId = some own → own ≠ projectId →
      (check.decide principal projectId scope).isAllowed = false) ∧
    (∀ scopes scopes' : ScopeSet, scopes ⊆ scopes' →
      (check.decide (principal.withScopes scopes) projectId scope).isAllowed →
      (check.decide (principal.withScopes scopes') projectId scope).isAllowed) := by
  refine ⟨?_, ?_, ?_, ?_, ?_⟩
  · intro scopes scopes' hdiffer
    exact check.decide_congr hordinary (principalHasProjectScope_congr principal projectId scope
      fun key hkey => hdiffer key (not_ofOtherProject hproject hscope hkey))
  · intro hunsupported hwildcard scopes scopes' hdiffer
    exact check.decide_congr hordinary (principalHasProjectScope_congr principal projectId scope
      fun key hkey => hdiffer key
        (not_membershipOrRole hproject hscope hunsupported hwildcard hkey))
  · intro huser scopes scopes' hdiffer
    refine check.decide_congr hordinary (principalHasProjectScope_congr principal projectId scope
      fun key hkey => hdiffer key ?_)
    rw [huser] at hkey
    exact not_apiKeyPrefixed hproject hscope hkey
  · intro hkind own hown hne
    have hdenied : (Rbac.hasProjectScope ⟨some principal, some projectId⟩ scope).isAllowed =
        false := by
      rw [hasProjectScope_eq hordinary, hown]
      simp [hne, PermissionDecision.isAllowed]
    cases check with
    | hasProjectScope => exact hdenied
    | query =>
        rw [Check.decide_query, checkQuery_eq hordinary, if_pos (.inr hkind)]
        exact hdenied
    | mutation op target =>
        rw [Check.decide_mutation, checkMutation_eq hordinary, if_neg (by simp [hdenied])]
        exact hdenied
  · intro scopes scopes' hsubset hallowed
    refine check.decide_mono hordinary ?_ hallowed
    rw [principalHasProjectScope_isAllowed, principalHasProjectScope_isAllowed]
    rintro ⟨key, hkey, hmem⟩
    exact ⟨key, hkey, hsubset hmem⟩

def sampleUser : Principal := ⟨.user, none, ∅, false⟩

theorem project_authority_sample :
    (Check.query.decide (sampleUser.withScopes ∅) "p1" "read_users").isAllowed = false ∧
    (Check.query.decide (sampleUser.withScopes {Scope.project "p2" "read_users"}) "p1"
      "read_users").isAllowed = false := by
  have h := (project_authority .query sampleUser ⟨.inl rfl, rfl⟩ "p1" "read_users" (by decide)
    (.inl (by decide))).1 ∅ {Scope.project "p2" "read_users"} fun scope hscope => by
      simp only [Finset.notMem_empty, Finset.mem_singleton, false_iff]
      rintro rfl
      exact hscope ⟨"p2", "read_users", by decide, by decide, List.mem_cons_self⟩
  rw [← h]
  exact ⟨by decide, by decide⟩

/-- Required as a scope, the wildcard is proved by a membership of the project:
it stands for its ownership, though no project role carries it. -/
theorem wildcard_by_membership :
    supportsProjectRole Slug.wildcard = false ∧
      (Check.hasProjectScope.decide (sampleUser.withScopes ∅) "p1" Slug.wildcard).isAllowed =
        false ∧
      (Check.hasProjectScope.decide
        (sampleUser.withScopes {Scope.projectMembership "p1" Slug.wildcard}) "p1"
        Slug.wildcard).isAllowed := by
  decide

end Conduit.Access.Rbac
