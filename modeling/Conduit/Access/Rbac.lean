import Mathlib.Data.Finset.Basic

/-!
# Scopes and the policy guard

Every grant of a principal is a string of one set: direct scopes, scopes of a
project, of its membership or a role in it, and scopes of an API key, told
apart by their colon-separated form. A check looks single strings up in the
set, in a fixed order, and reports the first that is there. Left out are the
fields of a principal and a context no check reads, and the audit of a bypass.
-/

namespace Conduit.Access.Rbac

/-! ## Scopes -/

namespace Slug

def systemAdmin : String := "system:admin"
def wildcard : String := "*"
def readUsers : String := "read_users"
def writeUsers : String := "write_users"
def readRoles : String := "read_roles"
def writeRoles : String := "write_roles"
def readApiKeys : String := "read_api_keys"
def writeApiKeys : String := "write_api_keys"
def readRequests : String := "read_requests"
def writeRequests : String := "write_requests"
def readPrompts : String := "read_prompts"
def writePrompts : String := "write_prompts"

end Slug

/-- The scopes a project role may carry. -/
def supportsProjectRole (scope : String) : Bool :=
  scope ∈ [Slug.readUsers, Slug.writeUsers, Slug.readRoles, Slug.writeRoles, Slug.readApiKeys,
    Slug.writeApiKeys, Slug.readRequests, Slug.writeRequests, Slug.readPrompts, Slug.writePrompts]

namespace Scope

def project (projectId scope : String) : String := "project:" ++ projectId ++ ":" ++ scope

def systemRole (scope : String) : String := "system:role:" ++ scope

def projectMembership (projectId scope : String) : String :=
  "project:" ++ projectId ++ ":member:" ++ scope

def projectRole (projectId scope : String) : String :=
  "project:" ++ projectId ++ ":role:" ++ scope

def apiKey (scope : String) : String := "api_key:scope:" ++ scope

def apiKeyProject (projectId scope : String) : String :=
  "api_key:project:" ++ projectId ++ ":" ++ scope

end Scope

abbrev ScopeSet := Finset String

namespace ScopeSet

variable (scopes : ScopeSet)

/-- `BTreeSet::get`. -/
def get (scope : String) : Option String := if scope ∈ scopes then some scope else none

/-- The wildcard matches every scope. -/
def matched (scope : String) : Option String :=
  match get scopes Slug.wildcard with
  | some wildcard => some wildcard
  | none => get scopes scope

def matchedProjectScope (projectId scope : String) : Option String :=
  (get scopes (Scope.project projectId scope)).orElse fun _ => matched scopes scope

def matchedSystemRoleScope (scope : String) : Option String :=
  (matched scopes Slug.systemAdmin).orElse fun _ => get scopes (Scope.systemRole scope)

/-- The wildcard as a required scope is the marker of project ownership. -/
def matchedProjectMembershipScope (projectId scope : String) : Option String :=
  if scope ≠ Slug.wildcard ∧ ¬ supportsProjectRole scope then none
  else (get scopes (Scope.projectMembership projectId scope)).orElse fun _ =>
    get scopes (Scope.projectMembership projectId Slug.wildcard)

def matchedProjectRoleScope (projectId scope : String) : Option String :=
  if scope ≠ Slug.wildcard ∧ ¬ supportsProjectRole scope then none
  else (get scopes (Scope.projectRole projectId scope)).orElse fun _ =>
    get scopes (Scope.projectRole projectId Slug.wildcard)

def matchedApiKeyScope (scope : String) : Option String := get scopes (Scope.apiKey scope)

def matchedApiKeyProjectScope (projectId scope : String) : Option String :=
  (get scopes (Scope.apiKeyProject projectId scope)).orElse fun _ =>
    matchedApiKeyScope scopes scope

end ScopeSet

/-! ## Decisions -/

inductive PermissionSource
  | system
  | test
  | owner
  | directScope
  | systemRoleScope
  | projectMembershipScope
  | projectRoleScope
  | apiKeyScope
deriving DecidableEq, Repr

inductive PermissionDecision
  | allow (source : PermissionSource) (reason : String)
  | deny (reason : String)
deriving DecidableEq, Repr

def PermissionDecision.isAllowed : PermissionDecision → Bool
  | .allow _ _ => true
  | .deny _ => false

inductive PrincipalKind
  | system
  | user
  | apiKey
  | test
deriving DecidableEq, Repr

structure Principal where
  kind : PrincipalKind
  projectId : Option String
  scopes : ScopeSet
  isOwner : Bool

structure RequestContext where
  principal : Option Principal
  projectId : Option String

def allowMatched (source : PermissionSource) (scope : String) : PermissionDecision :=
  .allow source ("matched scope `" ++ scope ++ "`")

def bypassDecision (principal : Principal) : Option PermissionDecision :=
  match principal.kind with
  | .system => some (.allow .system "system principal")
  | .test => some (.allow .test "test principal")
  | .user | .apiKey => none

def principalHasScope (principal : Principal) (scope : String) : PermissionDecision :=
  match bypassDecision principal with
  | some decision => decision
  | none =>
  if principal.isOwner then .allow .owner "owner principal"
  else match principal.scopes.matched scope with
  | some found => allowMatched .directScope found
  | none =>
  match principal.scopes.matchedSystemRoleScope scope with
  | some found => allowMatched .systemRoleScope found
  | none =>
  match (if principal.kind = .apiKey then principal.scopes.matchedApiKeyScope scope else none) with
  | some found => allowMatched .apiKeyScope found
  | none => .deny "required scope is missing"

/-- API-key scopes count for an API key only. -/
def principalHasProjectScope (principal : Principal) (projectId scope : String) :
    PermissionDecision :=
  match principal.scopes.matchedProjectScope projectId scope with
  | some found => allowMatched .directScope found
  | none =>
  match principal.scopes.matchedSystemRoleScope scope with
  | some found => allowMatched .systemRoleScope found
  | none =>
  match principal.scopes.matchedProjectMembershipScope projectId scope with
  | some found => allowMatched .projectMembershipScope found
  | none =>
  match principal.scopes.matchedProjectRoleScope projectId scope with
  | some found => allowMatched .projectRoleScope found
  | none =>
  match (if principal.kind = .apiKey then
    principal.scopes.matchedApiKeyProjectScope projectId scope else none) with
  | some found => allowMatched .apiKeyScope found
  | none => .deny "required project scope is missing"

def hasScope (ctx : RequestContext) (scope : String) : PermissionDecision :=
  match ctx.principal with
  | none => .deny "principal is required"
  | some principal => principalHasScope principal scope

/-- A principal of another project is turned away before its scopes are read. -/
def hasProjectScope (ctx : RequestContext) (scope : String) : PermissionDecision :=
  match ctx.principal with
  | none => .deny "principal is required"
  | some principal =>
  match bypassDecision principal with
  | some decision => decision
  | none =>
  if principal.isOwner then .allow .owner "owner principal"
  else match ctx.projectId with
  | none => .deny "project context is required"
  | some projectId =>
  if principal.projectId.any (· ≠ projectId) then
    .deny "principal project does not match request project"
  else principalHasProjectScope principal projectId scope

/-! ## The policy guard -/

inductive MutationOp
  | create
  | update
  | updateOne
  | delete
  | deleteOne
deriving DecidableEq, Repr

structure MutationTarget where
  projectId : Option String
  userId : Option String

namespace PolicyGuard

def bypassOrOwner (principal : Principal) : Option PermissionDecision :=
  match principal.kind with
  | .system => some (.allow .system "system principal bypasses policy")
  | .test => some (.allow .test "test principal bypasses policy")
  | .user | .apiKey => if principal.isOwner then some (.allow .owner "owner principal") else none

/-- With a project the project's scopes decide, without one the principal's. -/
def scopeDecision (ctx : RequestContext) (requiredScope : String) : PermissionDecision :=
  if ctx.projectId.isSome then hasProjectScope ctx requiredScope else hasScope ctx requiredScope

def checkUserQuery (ctx : RequestContext) (requiredScope : String) : PermissionDecision :=
  let decision := scopeDecision ctx requiredScope
  if decision.isAllowed then decision
  else .deny ("required scope `" ++ requiredScope ++ "` is missing")

def checkApiKeyQuery (ctx : RequestContext) (requiredScope : String) : PermissionDecision :=
  if ctx.projectId.isNone then .deny "api key requires a project context"
  else hasProjectScope ctx requiredScope

def checkQuery (ctx : RequestContext) (requiredScope : String) : PermissionDecision :=
  match ctx.principal with
  | none => .deny "principal is required"
  | some principal =>
  match bypassOrOwner principal with
  | some decision => decision
  | none =>
  match principal.kind with
  | .user => checkUserQuery ctx requiredScope
  | .apiKey => checkApiKeyQuery ctx requiredScope
  | .system | .test => .deny "unreachable: bypass handled earlier"

/-- A create has to name the request's project. -/
def verifyUserTarget (ctx : RequestContext) (op : MutationOp) (target : MutationTarget) :
    PermissionDecision :=
  match op with
  | .create =>
      let projectOk := match ctx.projectId, target.projectId with
        | some ctxPid, some targetPid => ctxPid == targetPid
        | some _, none => false
        | none, _ => true
      if projectOk then .allow .directScope "user create verified against request project"
      else .deny "create target project_id does not match request project"
  | .update | .updateOne | .delete | .deleteOne =>
      .allow .directScope "user mutation scoped by project_filter/owner_or_scope"

/-- A create has to name the key's own project. -/
def verifyApiKeyTarget (principal : Principal) (op : MutationOp) (target : MutationTarget) :
    PermissionDecision :=
  match op with
  | .create =>
      match target.projectId with
      | none => .deny "api key create requires a target project_id"
      | some targetPid =>
          if some targetPid ≠ principal.projectId then
            .deny "api key cannot create resources outside its own project"
          else .allow .apiKeyScope "api key create verified against own project"
  | .update | .updateOne | .delete | .deleteOne =>
      .allow .apiKeyScope "api key mutation scoped by project_filter"

def checkMutation (ctx : RequestContext) (requiredScope : String) (op : MutationOp)
    (target : MutationTarget) : PermissionDecision :=
  match ctx.principal with
  | none => .deny "principal is required"
  | some principal =>
  match bypassOrOwner principal with
  | some decision => decision
  | none =>
  let scopeDecision := scopeDecision ctx requiredScope
  if ¬ scopeDecision.isAllowed then scopeDecision
  else match principal.kind with
  | .user => verifyUserTarget ctx op target
  | .apiKey => verifyApiKeyTarget principal op target
  | .system | .test => .deny "unreachable: bypass handled earlier"

end PolicyGuard

end Conduit.Access.Rbac
