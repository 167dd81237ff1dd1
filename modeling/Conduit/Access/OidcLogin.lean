import Conduit.Base.TSys
import Conduit.Base.Text
import Mathlib.Data.List.Nodup
import Mathlib.Logic.Function.Basic
import Mathlib.Tactic.Common

/-!
# Login through an identity provider

`OidcAdapter`: a browser asks for an authorization URL, comes back from the
identity provider with a code and a state, and redeems an exchange code for a
session. Whoever sends a request chooses everything in it, the transaction
cookie included, and requests of any number of browsers overlap: each access
to the state cache, each statement of the database and each answer of a
provider is an action. Secrets are drawn one after the other. What was
authorized, linked, logged in and opened as a session is logged.
-/

namespace Conduit.Access.OidcLogin

open Base

/-! ## The state cache -/

inductive CachedValue
  | transaction (nonce codeVerifier : String)
  | userId (id : Nat)

structure CachedState where
  value : CachedValue
  expiresAt : Nat

/-- The cache's key of a transaction's token. -/
def keyOf (family browserTransaction token : String) : String :=
  family ++ ":" ++ browserTransaction ++ ":" ++ token

def stateKey : String → String → String := keyOf "oidc_state"

def linkStateKey : String → String → String := keyOf "oidc_link_state"

def exchangeKey : String → String → String := keyOf "oidc_exchange"

/-! ## Identities -/

structure IdTokenClaims where
  iss : String
  sub : String
  email : Option String
  emailVerified : Option Bool
  nonce : Option String

structure UserInfoResponse where
  sub : String
  email : Option String
  emailVerified : Option Bool

/-- What a provider answers once its token has been verified: the claims, and
the user info if there is an endpoint and a token for it. -/
structure Answer where
  claims : IdTokenClaims
  userInfo : Option UserInfoResponse

structure VerifiedOidcIdentity where
  issuer : String
  subject : String
  email : Option String
  deriving DecidableEq

def explicitlyVerifiedEmail (email : Option String) (emailVerified : Option Bool) : Option String :=
  if emailVerified = some true then email else none

/-- The end of `exchange_and_verify`. -/
def verifyAnswer (expectedNonce : String) (answer : Answer) : Except String VerifiedOidcIdentity :=
  if answer.claims.nonce ≠ some expectedNonce then
    .error "OIDC id_token nonce does not match the login transaction"
  else
    let identity : VerifiedOidcIdentity :=
      { issuer := answer.claims.iss
        subject := answer.claims.sub
        email := explicitlyVerifiedEmail answer.claims.email answer.claims.emailVerified }
    match identity.email, answer.userInfo with
    | none, some info =>
        if info.sub ≠ identity.subject then .error "OIDC userinfo subject does not match id_token"
        else .ok { identity with email := explicitlyVerifiedEmail info.email info.emailVerified }
    | _, _ => .ok identity

/-! ## Requests -/

/-- The transaction a callback belongs to, as it was cached. -/
structure Transaction where
  browserTransaction : String
  state : String
  nonce : String

/-- A callback with what the provider answered. -/
structure Verified where
  transaction : Transaction
  answer : Answer
  identity : VerifiedOidcIdentity
  allowSignup : Bool

/-- How far a request is: the next access is in its name. -/
inductive Phase
  | idle
  | linking (browserTransaction state : String) (user : Nat)
  | verifying (transaction : Transaction) (allowSignup : Bool)
  | takingLink (verified : Verified)
  | finding (verified : Verified)
  | touching (verified : Verified) (user : Nat)
  | matching (verified : Verified) (email : String)
  | creating (verified : Verified) (email : String)
  | upserting (verified : Verified) (user : Nat) (linkIntent : Bool)
  | loading (verified : Verified) (user : Nat) (linkIntent : Bool)
  | exchanging (browserTransaction code : String) (user : Nat)
  | ended (result : Except String String)

structure User where
  id : Nat
  email : String
  activated : Bool := true
  deleted : Bool := false
  /-- The password is the placeholder of a user who signs in here only. -/
  oidcOnly : Bool

/-- A row of `oidc_identities`. -/
structure Identity where
  issuer : String
  subject : String
  userId : Nat

/-! ## What has happened -/

structure Authorization where
  browserTransaction : String
  state : String
  nonce : String
  linkUser : Option Nat

structure Link where
  verified : Verified
  user : Nat
  linkIntent : Bool

structure Login where
  task : Nat
  verified : Verified
  user : Nat
  code : String

structure Session where
  task : Nat
  browserTransaction : String
  code : String
  user : Nat

structure World where
  now : Nat := 0
  drawn : Nat := 0
  nextTask : Nat := 0
  cache : String → Option CachedState := fun _ => none
  /-- The request that took a key out of the cache. -/
  takenBy : String → Option Nat := fun _ => none
  users : List User := []
  identities : List Identity := []
  tasks : Nat → Phase := fun _ => .idle
  authorizations : List Authorization := []
  /-- The rows found by a verified email or created for it, as they were then. -/
  matched : List User := []
  links : List Link := []
  logins : List Login := []
  sessions : List Session := []

inductive Action
  | tick (elapsed : Nat)
  | authorize (linkUser : Option Nat)
  | callback (browserTransaction state : String) (allowSignup : Bool)
  | answer (task : Nat) (reply : Option Answer)
  | proceed (task : Nat) (succeeds : Bool)
  | exchange (browserTransaction code : String)
  | addUser (email : String)
  | setUser (id : Nat) (email : String) (activated deleted oidcOnly : Bool)
  | unlink (issuer subject : String) (user : Nat)

structure Config where
  enabled : Bool
  stateTtl : Nat

namespace World

def setPhase (task : Nat) (phase : Phase) (w : World) : World :=
  { w with tasks := Function.update w.tasks task phase }

def fail (task : Nat) (error : String) (w : World) : World := w.setPhase task
    (.ended (.error error))

/-- `StateCache::set`. -/
def set (key : String) (value : CachedValue) (ttl : Nat) (w : World) : World :=
  { w with cache := Function.update w.cache key (some ⟨value, w.now + ttl⟩) }

/-- What `StateCache::consume` finds. -/
def lookup (key : String) (w : World) : Option CachedValue :=
  match w.cache key with
  | some entry => if w.now < entry.expiresAt then some entry.value else none
  | none => none

/-- What it leaves behind, found or not. -/
def remove (key : String) (task : Nat) (w : World) : World :=
  { w with
    cache := Function.update w.cache key none
    takenBy := if (w.lookup key).isSome then Function.update w.takenBy key (some task)
      else w.takenBy }

def userByEmail (email : String) (w : World) : Option User :=
  w.users.find? fun user => user.email = email ∧ user.deleted = false

def userById (id : Nat) (w : World) : Option User :=
  w.users.find? fun user => user.id = id ∧ user.deleted = false

/-- `load_oidc_user`, but for the user's other fields. -/
def loadOidcUser (id : Nat) (w : World) : Except String Unit :=
  match w.userById id with
  | none => .error "OIDC user not found"
  | some user => if user.activated then .ok () else .error "OIDC user is not activated"

def newUser (email : String) (oidcOnly : Bool) (w : World) : User where
  id := w.users.length
  email := email
  oidcOnly := oidcOnly

/-- An update of a user; an email is unique among those not deleted. -/
def setUser (id : Nat) (email : String) (activated deleted oidcOnly : Bool) (w : World) : World :=
  if ¬ deleted ∧ w.users.any fun user => user.id ≠ id ∧ user.email = email ∧ user.deleted = false
  then w
  else
    { w with
      users := w.users.map fun user =>
        if user.id = id then
          { id := id
            email := email
            activated := activated
            deleted := deleted
            oidcOnly := oidcOnly }
        else user }

/-- `find_identity_user_id`. -/
def identityUser (identity : VerifiedOidcIdentity) (w : World) : Option Nat :=
  (w.identities.find? fun row =>
    row.issuer = identity.issuer ∧ row.subject = identity.subject).map Identity.userId

def link (verified : Verified) (user : Nat) (linkIntent : Bool) (w : World) : World :=
  { w with
    identities := w.identities ++ [⟨verified.identity.issuer, verified.identity.subject, user⟩]
    links := w.links ++ [⟨verified, user, linkIntent⟩] }

section Step

variable (config : Config) (secretOf : Nat → String)

/-- `get_authorize_url` and the first half of `get_link_authorize_url`. -/
def authorize (linkUser : Option Nat) (w : World) : World :=
  if config.enabled = false then w
  else
    let browserTransaction := secretOf w.drawn
    let state := secretOf (w.drawn + 1)
    let nonce := secretOf (w.drawn + 2)
    let codeVerifier := secretOf (w.drawn + 3)
    let w := w.set (stateKey browserTransaction state)
      (.transaction nonce codeVerifier) config.stateTtl
    { w with
      drawn := w.drawn + 4
      nextTask := w.nextTask + 1
      tasks := Function.update w.tasks w.nextTask
        (match linkUser with
        | some user => .linking browserTransaction state user
        | none => .ended (.ok state))
      authorizations := w.authorizations ++ [⟨browserTransaction, state, nonce, linkUser⟩] }

/-- A callback takes its transaction out of the cache. -/
def callback (browserTransaction state : String) (allowSignup : Bool) (w : World) : World :=
  let key := stateKey browserTransaction state
  let phase : Phase :=
    match w.lookup key with
    | some (.transaction nonce _) => .verifying ⟨browserTransaction, state, nonce⟩ allowSignup
    | _ => .ended (.error "invalid or expired OIDC state")
  { (w.remove key w.nextTask).setPhase w.nextTask phase with nextTask := w.nextTask + 1 }

/-- `exchange_code` takes the code out of the cache. -/
def exchange (browserTransaction code : String) (w : World) : World :=
  let key := exchangeKey browserTransaction code
  let phase : Phase :=
    match w.lookup key with
    | some (.userId user) => .exchanging browserTransaction code user
    | _ => .ended (.error "invalid or expired exchange code")
  { (w.remove key w.nextTask).setPhase w.nextTask phase with nextTask := w.nextTask + 1 }

/-- The provider's answer to a callback, or that there is none. -/
def answer (task : Nat) (reply : Option Answer) (w : World) : World :=
  match w.tasks task, reply with
  | .verifying transaction allowSignup, some reply =>
      match verifyAnswer transaction.nonce reply with
      | .ok identity => w.setPhase task (.takingLink ⟨transaction, reply, identity, allowSignup⟩)
      | .error e => w.fail task e
  | .verifying _ _, none => w.fail task "OIDC token exchange failed"
  | _, _ => w

/-- The second half of `get_link_authorize_url`. -/
def cacheLink (task : Nat) (browserTransaction state : String) (user : Nat) (w : World) : World :=
  (w.set (linkStateKey browserTransaction state) (.userId user) config.stateTtl).setPhase task
    (.ended (.ok state))

/-- `callback` takes the link intent out of the cache. -/
def takeLink (task : Nat) (verified : Verified) (w : World) : World :=
  let key := linkStateKey verified.transaction.browserTransaction verified.transaction.state
  let phase : Phase :=
    match w.lookup key with
    | some (.userId user) => .upserting verified user true
    | some (.transaction _ _) => .ended (.error "invalid OIDC link state")
    | none => .finding verified
  (w.remove key task).setPhase task phase

/-- `resolve_user` looks the identity up. -/
def findUser (task : Nat) (verified : Verified) (w : World) : World :=
  match w.identityUser verified.identity with
  | some user => w.setPhase task (.touching verified user)
  | none =>
      match verified.identity.email with
      | none => w.fail task "OIDC provider did not return an email address"
      | some email =>
          if Text.trim email = "" then w.fail task "OIDC provider did not return an email address"
          else w.setPhase task (.matching verified email)

/-- `find_user_id_by_email`, and whether a new user may sign up. -/
def matchEmail (task : Nat) (verified : Verified) (email : String) (w : World) : World :=
  match w.userByEmail email with
  | some user =>
      setPhase task (.upserting verified user.id false)
        { w with matched := w.matched ++ [user] }
  | none =>
      if verified.allowSignup then w.setPhase task (.creating verified email)
      else w.fail task "OIDC signup is disabled for this provider"

def createOidcUser (task : Nat) (verified : Verified) (email : String) (w : World) : World :=
  if (w.userByEmail email).isSome then w.fail task "failed to create OIDC user"
  else
    let user := w.newUser email true
    setPhase task (.upserting verified user.id false)
      { w with
        users := w.users ++ [user]
        matched := w.matched ++ [user] }

def upsertIdentity (task : Nat) (verified : Verified) (user : Nat) (linkIntent : Bool)
    (w : World) : World :=
  match w.identityUser verified.identity with
  | none => (w.link verified user linkIntent).setPhase task (.loading verified user linkIntent)
  | some owner =>
      if owner = user then w.setPhase task (.loading verified user linkIntent)
      else w.fail task "OIDC identity is already linked to another user"

/-- The end of `callback`: the user is loaded, and a code cached for a login. -/
def finishCallback (task : Nat) (verified : Verified) (user : Nat) (linkIntent : Bool)
    (w : World) : World :=
  match w.loadOidcUser user with
  | .error e => w.fail task e
  | .ok () =>
      if linkIntent then w.setPhase task (.ended (.ok ""))
      else
        let code := secretOf w.drawn
        let key := exchangeKey verified.transaction.browserTransaction code
        setPhase task (.ended (.ok code))
          { w.set key (.userId user) config.stateTtl with
            drawn := w.drawn + 1
            logins := w.logins ++ [⟨task, verified, user, code⟩] }

/-- The end of `exchange_code`. -/
def finishExchange (task : Nat) (browserTransaction code : String) (user : Nat)
    (w : World) : World :=
  match w.loadOidcUser user with
  | .error e => w.fail task e
  | .ok () =>
      setPhase task (.ended (.ok code))
        { w with sessions := w.sessions ++ [⟨task, browserTransaction, code, user⟩] }

/-- The next access of a request. -/
def next (task : Nat) (w : World) : World :=
  match w.tasks task with
  | .linking browserTransaction state user => w.cacheLink config task browserTransaction state user
  | .takingLink verified => w.takeLink task verified
  | .finding verified => w.findUser task verified
  | .touching verified user => w.setPhase task (.loading verified user false)
  | .matching verified email => w.matchEmail task verified email
  | .creating verified email => w.createOidcUser task verified email
  | .upserting verified user linkIntent => w.upsertIdentity task verified user linkIntent
  | .loading verified user linkIntent =>
      w.finishCallback config secretOf task verified user linkIntent
  | .exchanging browserTransaction code user => w.finishExchange task browserTransaction code user
  | _ => w

/-- `unlink_oidc_identity`: a user without a password keeps the last one. -/
def unlink (issuer subject : String) (user : Nat) (w : World) : World :=
  let count := (w.identities.filter fun row => row.userId = user).length
  if (w.userById user).any fun owner => !owner.oidcOnly || decide (1 < count) then
    { w with
      identities := w.identities.filter fun row =>
        ¬ (row.issuer = issuer ∧ row.subject = subject ∧ row.userId = user) }
  else w

def step (w : World) : Action → World
  | .tick elapsed => { w with now := w.now + elapsed }
  | .authorize linkUser => w.authorize config secretOf linkUser
  | .callback browserTransaction state allowSignup =>
      w.callback browserTransaction state allowSignup
  | .answer task reply => w.answer task reply
  | .proceed task succeeds =>
      match succeeds, w.tasks task with
      | true, _ => w.next config secretOf task
      | false, .idle => w
      | false, .ended _ => w
      | false, _ => w.fail task "database or cache failure"
  | .exchange browserTransaction code => w.exchange browserTransaction code
  | .addUser email =>
      if (w.userByEmail email).isSome then w
      else { w with users := w.users ++ [w.newUser email false] }
  | .setUser id email activated deleted oidcOnly => w.setUser id email activated deleted oidcOnly
  | .unlink issuer subject user => w.unlink issuer subject user

def system : TSys World Action where
  init := {}
  step := step config secretOf

end Step

end World

/-!
## Who a session through an identity provider belongs to

Every session was opened with an exchange code that was minted for one login of
the same browser and is used once; every login redeems one authorization of the
same browser, once, with a token that carries its nonce; and the user is one to
whom that identity was linked, by an authorization asking for it or by an email
that the provider vouches for.

Two facts carry this. A key of the cache determines the family, the browser
transaction and the token it was made of, whatever a request puts in their
places, since minted tokens have no separator (`keyOf_inj`). And a state or an
exchange code that was taken out of the cache never comes back
(`Sound.spent`), so the request that took it is the only one to hold it.
-/

/-! ## Keys -/

theorem before_separator {α : Type} {sep : α} {f f' r r' : List α} (hf : sep ∉ f)
    (hf' : sep ∉ f') (h : f' ++ sep :: r' = f ++ sep :: r) : f' = f ∧ r' = r := by
  induction f generalizing f' with
  | nil =>
      cases f' with
      | nil => simpa using h
      | cons c f' => simp_all
  | cons c f ih =>
      cases f' with
      | nil => simp_all
      | cons c' f' =>
          simp only [List.mem_cons, not_or] at hf hf'
          simp only [List.cons_append, List.cons.injEq] at h
          obtain ⟨rfl, rfl⟩ := ih hf.2 hf'.2 h.2
          exact ⟨by rw [h.1], rfl⟩

theorem keyOf_toList (family browserTransaction token : String) :
    (keyOf family browserTransaction token).toList =
      family.toList ++ ':' :: (browserTransaction.toList ++ ':' :: token.toList) := by
  simp [keyOf]

theorem keyOf_inj {f f' b b' t t' : String} (hf : ':' ∉ f.toList) (hf' : ':' ∉ f'.toList)
    (hb : ':' ∉ b.toList) (ht : ':' ∉ t.toList) (h : keyOf f' b' t' = keyOf f b t) :
    f' = f ∧ b' = b ∧ t' = t := by
  have hlist := congrArg String.toList h
  rw [keyOf_toList, keyOf_toList] at hlist
  obtain ⟨hff, hrest⟩ := before_separator hf hf' hlist
  obtain ⟨hbb, -, htt⟩ := (List.append_cons_inj_of_notMem hb ht).mp hrest.symm
  exact ⟨String.toList_inj.mp hff, String.toList_inj.mp hbb.symm, String.toList_inj.mp htt.symm⟩

theorem keyOf_family {f f' b b' t t' : String} (hf : ':' ∉ f.toList) (hf' : ':' ∉ f'.toList)
    (h : keyOf f' b' t' = keyOf f b t) : f' = f := by
  have hlist := congrArg String.toList h
  rw [keyOf_toList, keyOf_toList] at hlist
  exact String.toList_inj.mp (before_separator hf hf' hlist).1

/-! ## What each thing rests on -/

/-- The transaction is one that was authorized. -/
def Begun (w : World) (transaction : Transaction) : Prop :=
  ∃ a ∈ w.authorizations, a.browserTransaction = transaction.browserTransaction ∧
    a.state = transaction.state ∧ a.nonce = transaction.nonce

/-- The request holds the transaction's state, and the provider answered it. -/
def Checked (w : World) (task : Nat) (verified : Verified) : Prop :=
  Begun w verified.transaction ∧
    w.takenBy (stateKey verified.transaction.browserTransaction verified.transaction.state) =
      some task ∧
      verifyAnswer verified.transaction.nonce verified.answer = .ok verified.identity

/-- The authorization of a state asked for a link with the user. -/
def Asked (w : World) (browserTransaction state : String) (user : Nat) : Prop :=
  ∃ a ∈ w.authorizations, a.browserTransaction = browserTransaction ∧ a.state = state ∧
    a.linkUser = some user

/-- The identity may be linked to the user: its authorization asked for it, or
its email was that of a row of the user. -/
def Entitled (w : World) (verified : Verified) (user : Nat) (linkIntent : Bool) : Prop :=
  if linkIntent then
    Asked w verified.transaction.browserTransaction verified.transaction.state user
  else
    ∃ row ∈ w.matched, verified.identity.email = some row.email ∧ row.id = user ∧
      row.deleted = false

def Linked (w : World) (issuer subject : String) (user : Nat) : Prop :=
  ∃ link ∈ w.links, link.verified.identity.issuer = issuer ∧
    link.verified.identity.subject = subject ∧ link.user = user

def Redeemable (w : World) (browserTransaction code : String) (user : Nat) : Prop :=
  ∃ login ∈ w.logins, login.verified.transaction.browserTransaction = browserTransaction ∧
    login.code = code ∧ login.user = user

namespace Phase

def isEnded : Phase → Bool
  | ended _ => true
  | _ => false

/-- A request is under way. -/
def isRunning : Phase → Bool
  | idle | ended _ => false
  | _ => true

/-- What is known while a request is in this phase. -/
def Sound (w : World) (task : Nat) : Phase → Prop
  | idle | ended _ => True
  | linking browserTransaction state user => Asked w browserTransaction state user
  | verifying transaction _ =>
      Begun w transaction ∧
        w.takenBy (stateKey transaction.browserTransaction transaction.state) = some task
  | takingLink verified | finding verified => Checked w task verified
  | touching verified user | loading verified user _ =>
      Checked w task verified ∧ Linked w verified.identity.issuer verified.identity.subject user
  | matching verified email | creating verified email =>
      Checked w task verified ∧ verified.identity.email = some email
  | upserting verified user linkIntent =>
      Checked w task verified ∧ Entitled w verified user linkIntent
  | exchanging browserTransaction code user =>
      w.takenBy (exchangeKey browserTransaction code) = some task ∧
        Redeemable w browserTransaction code user

theorem isEnded_of_isRunning {phase : Phase} (h : phase.isRunning = true) :
    phase.isEnded = false := by
  cases phase <;> simp_all [isRunning, isEnded]

end Phase

/-- What a value of the cache stands for. -/
def Entry (w : World) (key : String) : CachedValue → Prop
  | .transaction nonce _ =>
      ∃ a ∈ w.authorizations, key = stateKey a.browserTransaction a.state ∧ a.nonce = nonce
  | .userId user =>
      (∃ a ∈ w.authorizations, key = linkStateKey a.browserTransaction a.state ∧
        a.linkUser = some user) ∨
      ∃ login ∈ w.logins,
        key = exchangeKey login.verified.transaction.browserTransaction login.code ∧
          login.user = user

/-- A link state is looked up by the request that holds its state already, so
taking it out needs no record. -/
def IsLinkKey (key : String) : Prop :=
  ∃ browserTransaction state, key = linkStateKey browserTransaction state

/-! ## More of it stays true -/

structure Grows (w w' : World) : Prop where
  authorizations : w.authorizations ⊆ w'.authorizations
  matched : w.matched ⊆ w'.matched
  links : w.links ⊆ w'.links
  logins : w.logins ⊆ w'.logins
  taken : ∀ key task, ¬ IsLinkKey key → w.takenBy key = some task → w'.takenBy key = some task

section Mono

variable {w w' : World} {task user : Nat} {verified : Verified}

theorem not_isLinkKey {family browserTransaction token : String}
    (hfamily : ':' ∉ family.toList) (hne : family ≠ "oidc_link_state") :
    ¬ IsLinkKey (keyOf family browserTransaction token) := by
  rintro ⟨b, s, h⟩
  exact hne (keyOf_family (by decide) hfamily h)

theorem not_isLinkKey_stateKey (browserTransaction token : String) :
    ¬ IsLinkKey (stateKey browserTransaction token) := not_isLinkKey (by decide) (by decide)

theorem not_isLinkKey_exchangeKey (browserTransaction token : String) :
    ¬ IsLinkKey (exchangeKey browserTransaction token) := not_isLinkKey (by decide) (by decide)

theorem Begun.mono {transaction : Transaction} (g : Grows w w') (h : Begun w transaction) :
    Begun w' transaction := by
  obtain ⟨a, ha, hrest⟩ := h
  exact ⟨a, g.authorizations ha, hrest⟩

theorem Checked.mono (g : Grows w w') (h : Checked w task verified) : Checked w' task verified :=
  ⟨h.1.mono g, g.taken _ _ (not_isLinkKey_stateKey _ _) h.2.1, h.2.2⟩

theorem Asked.mono {b s : String} (g : Grows w w') (h : Asked w b s user) : Asked w' b s user := by
  obtain ⟨a, ha, hrest⟩ := h
  exact ⟨a, g.authorizations ha, hrest⟩

theorem Entitled.mono {linkIntent : Bool} (g : Grows w w')
    (h : Entitled w verified user linkIntent) : Entitled w' verified user linkIntent := by
  cases linkIntent with
  | true => exact Asked.mono g h
  | false =>
      obtain ⟨row, hrow, hrest⟩ := h
      exact ⟨row, g.matched hrow, hrest⟩

theorem Linked.mono {issuer subject : String} (g : Grows w w') (h : Linked w issuer subject user) :
    Linked w' issuer subject user := by
  obtain ⟨link, hlink, hrest⟩ := h
  exact ⟨link, g.links hlink, hrest⟩

theorem Redeemable.mono {b code : String} (g : Grows w w') (h : Redeemable w b code user) :
    Redeemable w' b code user := by
  obtain ⟨login, hlogin, hrest⟩ := h
  exact ⟨login, g.logins hlogin, hrest⟩

theorem Phase.Sound.mono {phase : Phase} (g : Grows w w') (h : phase.Sound w task) :
    phase.Sound w' task := by
  cases phase with
  | idle => exact h
  | ended result => exact h
  | linking b s user => exact Asked.mono g h
  | verifying transaction allowSignup =>
      exact ⟨h.1.mono g, g.taken _ _ (not_isLinkKey_stateKey _ _) h.2⟩
  | takingLink verified => exact Checked.mono g h
  | finding verified => exact Checked.mono g h
  | touching verified user => exact ⟨h.1.mono g, h.2.mono g⟩
  | loading verified user linkIntent => exact ⟨h.1.mono g, h.2.mono g⟩
  | matching verified email => exact ⟨h.1.mono g, h.2⟩
  | creating verified email => exact ⟨h.1.mono g, h.2⟩
  | upserting verified user linkIntent => exact ⟨h.1.mono g, h.2.mono g⟩
  | exchanging b code user =>
      exact ⟨g.taken _ _ (not_isLinkKey_exchangeKey _ _) h.1, h.2.mono g⟩

theorem Entry.mono {key : String} {value : CachedValue} (g : Grows w w') (h : Entry w key value) :
    Entry w' key value := by
  cases value with
  | transaction nonce codeVerifier =>
      obtain ⟨a, ha, hrest⟩ := h
      exact ⟨a, g.authorizations ha, hrest⟩
  | userId user =>
      rcases h with ⟨a, ha, hrest⟩ | ⟨login, hlogin, hrest⟩
      · exact .inl ⟨a, g.authorizations ha, hrest⟩
      · exact .inr ⟨login, g.logins hlogin, hrest⟩

end Mono

/-! ## The invariant -/

section Invariant

variable (secretOf : Nat → String)

def Minted (drawn : Nat) (token : String) : Prop := ∃ n, n < drawn ∧ token = secretOf n

/-- The key's browser transaction and token were drawn. -/
def MintedKey (drawn : Nat) (key : String) : Prop :=
  ∃ family b token, ':' ∉ family.toList ∧ Minted secretOf drawn b ∧ Minted secretOf drawn token ∧
    key = keyOf family b token

structure Sound (w : World) : Prop where
  tokens : ∀ a ∈ w.authorizations,
    Minted secretOf w.drawn a.browserTransaction ∧ Minted secretOf w.drawn a.state
  states : (w.authorizations.map Authorization.state).Nodup
  cached : ∀ key entry, w.cache key = some entry → Entry w key entry.value
  taken : ∀ key task, w.takenBy key = some task → MintedKey secretOf w.drawn key
  spent : ∀ key task, ¬ IsLinkKey key → w.takenBy key = some task → w.cache key = none
  phases : ∀ task, (w.tasks task).Sound w task
  unused : ∀ task, w.nextTask ≤ task → w.tasks task = .idle
  rows : ∀ row ∈ w.identities, Linked w row.issuer row.subject row.userId
  links : ∀ link ∈ w.links, (∃ task, Checked w task link.verified) ∧
    Entitled w link.verified link.user link.linkIntent
  logins : ∀ login ∈ w.logins, Checked w login.task login.verified ∧
    Linked w login.verified.identity.issuer login.verified.identity.subject login.user ∧
      (w.tasks login.task).isEnded = true
  codes : ∀ login ∈ w.logins, Minted secretOf w.drawn login.code
  loginCodes : (w.logins.map Login.code).Nodup
  loginStates : (w.logins.map fun login => login.verified.transaction.state).Nodup
  sessions : ∀ session ∈ w.sessions,
    w.takenBy (exchangeKey session.browserTransaction session.code) = some session.task ∧
      Redeemable w session.browserTransaction session.code session.user ∧
        (w.tasks session.task).isEnded = true
  sessionCodes : (w.sessions.map Session.code).Nodup

variable {secretOf}

theorem Minted.mono {drawn drawn' : Nat} {token : String} (hle : drawn ≤ drawn')
    (h : Minted secretOf drawn token) : Minted secretOf drawn' token := by
  obtain ⟨n, hn, rfl⟩ := h
  exact ⟨n, by omega, rfl⟩

theorem MintedKey.mono {drawn drawn' : Nat} {key : String} (hle : drawn ≤ drawn')
    (h : MintedKey secretOf drawn key) : MintedKey secretOf drawn' key := by
  obtain ⟨family, b, token, hfamily, hb, htoken, rfl⟩ := h
  exact ⟨family, b, token, hfamily, hb.mono hle, htoken.mono hle, rfl⟩

namespace Sound

variable {w : World} {task user : Nat} {phase : Phase} {verified : Verified} {key : String}

theorem init : Sound secretOf {} where
  tokens := by simp
  states := by simp
  cached := by simp
  taken := by simp
  spent := by simp
  phases := fun _ => trivial
  unused := fun _ _ => rfl
  rows := by simp
  links := by simp
  logins := by simp
  codes := by simp
  loginCodes := by simp
  loginStates := by simp
  sessions := by simp
  sessionCodes := by simp

/-! ### What the fields say together -/

theorem lt_of_isRunning (h : Sound secretOf w) (hrun : (w.tasks task).isRunning = true) :
    task < w.nextTask := by
  by_contra hlt
  rw [h.unused task (by omega)] at hrun
  cases hrun

/-- Authorizations are told apart by their state. -/
theorem authorization_unique (h : Sound secretOf w) {a a' : Authorization}
    (ha : a ∈ w.authorizations) (ha' : a' ∈ w.authorizations) (hstate : a.state = a'.state) :
    a = a' := List.inj_on_of_nodup_map h.states ha ha' hstate

theorem begun_browser (h : Sound secretOf w) {t t' : Transaction} (ht : Begun w t)
    (ht' : Begun w t') (hstate : t.state = t'.state) :
    t.browserTransaction = t'.browserTransaction := by
  obtain ⟨a, ha, hb, hs, -⟩ := ht
  obtain ⟨a', ha', hb', hs', -⟩ := ht'
  have := h.authorization_unique ha ha' (by rw [hs, hs', hstate])
  rw [← hb, ← hb', this]

/-- One request only holds a state. -/
theorem holder_unique (h : Sound secretOf w) {task' : Nat} {verified' : Verified}
    (hv : Checked w task verified) (hv' : Checked w task' verified')
    (hstate : verified.transaction.state = verified'.transaction.state) : task = task' := by
  have htaken := hv.2.1
  rw [hstate, h.begun_browser hv.1 hv'.1 hstate, hv'.2.1] at htaken
  exact (Option.some.inj htaken).symm

theorem redeemable_browser (h : Sound secretOf w) {b b' code : String} {user user' : Nat}
    (hr : Redeemable w b code user) (hr' : Redeemable w b' code user') : b = b' := by
  obtain ⟨login, hlogin, hb, hcode, -⟩ := hr
  obtain ⟨login', hlogin', hb', hcode', -⟩ := hr'
  have := List.inj_on_of_nodup_map h.loginCodes hlogin hlogin' (by rw [hcode, hcode'])
  rw [← hb, ← hb', this]

/-! ### The logs grow -/

/-- Another entry of a log with its own key. -/
theorem nodup_map_concat {α β : Type} {f : α → β} {log : List α} {entry : α}
    (hlog : (log.map f).Nodup) (hnew : ∀ other ∈ log, f other ≠ f entry) :
    ((log ++ [entry]).map f).Nodup := by
  rw [List.map_append, List.nodup_append]
  refine ⟨hlog, by simp, ?_⟩
  simp only [List.mem_map, List.map_cons, List.map_nil, List.mem_singleton]
  rintro _ ⟨other, hother, rfl⟩ _ rfl
  exact hnew other hother

theorem forall_mem_concat {α : Type} {P : α → Prop} {log : List α} {entry : α}
    (hlog : ∀ other ∈ log, P other) (hnew : P entry) : ∀ other ∈ log ++ [entry], P other :=
  List.forall_mem_append.mpr ⟨hlog, List.forall_mem_singleton.mpr hnew⟩

theorem grows (h : Sound secretOf w) {w' : World} (g : Grows w w')
    (hphases : w'.tasks = w.tasks) (hsessions : w'.sessions = w.sessions) :
    (∀ task, (w'.tasks task).Sound w' task) ∧
      (∀ row ∈ w.identities, Linked w' row.issuer row.subject row.userId) ∧
      (∀ link ∈ w.links, (∃ task, Checked w' task link.verified) ∧
        Entitled w' link.verified link.user link.linkIntent) ∧
      (∀ login ∈ w.logins, Checked w' login.task login.verified ∧
        Linked w' login.verified.identity.issuer login.verified.identity.subject login.user ∧
          (w'.tasks login.task).isEnded = true) ∧
      ∀ session ∈ w'.sessions,
        w'.takenBy (exchangeKey session.browserTransaction session.code) = some session.task ∧
          Redeemable w' session.browserTransaction session.code session.user ∧
            (w'.tasks session.task).isEnded = true := by
  rw [hphases, hsessions]
  refine ⟨fun task => (h.phases task).mono g, fun row hrow => (h.rows row hrow).mono g, ?_, ?_, ?_⟩
  · intro link hlink
    obtain ⟨⟨task, hchecked⟩, hentitled⟩ := h.links link hlink
    exact ⟨⟨task, hchecked.mono g⟩, hentitled.mono g⟩
  · intro login hl
    obtain ⟨hchecked, hlinked, hended⟩ := h.logins login hl
    exact ⟨hchecked.mono g, hlinked.mono g, hended⟩
  · intro session hs
    obtain ⟨htaken, hredeemable, hended⟩ := h.sessions session hs
    exact ⟨g.taken _ _ (not_isLinkKey_exchangeKey _ _) htaken, hredeemable.mono g, hended⟩

/-! ### The parts of a step -/

theorem setPhase (h : Sound secretOf w) (hlt : task < w.nextTask)
    (hended : (w.tasks task).isEnded = false) (hphase : phase.Sound w task) :
    Sound secretOf (w.setPhase task phase) := by
  have hother : ∀ other, (w.tasks other).isEnded = true →
      ((w.setPhase task phase).tasks other).isEnded = true := by
    intro other hother
    have hne : other ≠ task := by
      rintro rfl
      simp [hother] at hended
    simpa [World.setPhase, hne] using hother
  exact
    { h with
      phases := by
        intro other
        show Phase.Sound w other (Function.update w.tasks task phase other)
        by_cases hne : other = task
        · subst hne
          simpa using hphase
        · simpa [hne] using h.phases other
      unused := by
        intro other hle
        have hne : other ≠ task := by
          rintro rfl
          exact absurd hlt (by simpa [World.setPhase] using hle)
        simpa [World.setPhase, hne] using h.unused other hle
      logins := fun login hl => ⟨(h.logins login hl).1, (h.logins login hl).2.1,
        hother login.task (h.logins login hl).2.2⟩
      sessions := fun session hs => ⟨(h.sessions session hs).1, (h.sessions session hs).2.1,
        hother session.task (h.sessions session hs).2.2⟩ }

/-- A request that is under way goes on. -/
theorem advance (h : Sound secretOf w) (hrun : (w.tasks task).isRunning = true)
    (hphase : phase.Sound w task) : Sound secretOf (w.setPhase task phase) :=
  h.setPhase (h.lt_of_isRunning hrun) (Phase.isEnded_of_isRunning hrun) hphase

theorem fail {error : String} (h : Sound secretOf w) (hrun : (w.tasks task).isRunning = true) :
    Sound secretOf (w.fail task error) := by
  show Sound secretOf (w.setPhase task (.ended (.error error)))
  exact h.advance hrun trivial

/-- A new request. -/
theorem spawn (h : Sound secretOf w) (hphase : phase.Sound w w.nextTask) :
    Sound secretOf { w.setPhase w.nextTask phase with nextTask := w.nextTask + 1 } := by
  have hidle : w.tasks w.nextTask = .idle := h.unused w.nextTask (by omega)
  have hreserved : Sound secretOf { w with nextTask := w.nextTask + 1 } :=
    { h with unused := fun other hle => h.unused other (by simp at hle; omega) }
  exact hreserved.setPhase (by simp) (by simp [hidle, Phase.isEnded]) hphase

theorem set {value : CachedValue} (h : Sound secretOf w) (ttl : Nat)
    (hfresh : IsLinkKey key ∨ w.takenBy key = none) (hentry : Entry w key value) :
    Sound secretOf (w.set key value ttl) :=
  { h with
    cached := by
      intro key' entry hcached
      by_cases hkey : key' = key
      · subst hkey
        obtain rfl : CachedState.mk value (w.now + ttl) = entry := by
          simpa [World.set] using hcached
        exact hentry
      · exact h.cached key' entry (by simpa [World.set, hkey] using hcached)
    spent := by
      intro key' task hlink htaken
      have hkey : key' ≠ key := by
        rintro rfl
        rcases hfresh with hfresh | hfresh
        · exact hlink hfresh
        · simp [World.set, hfresh] at htaken
      simpa [World.set, hkey] using h.spent key' task hlink htaken }

theorem mintedKey_of_entry {value : CachedValue} (h : Sound secretOf w)
    (hentry : Entry w key value) : MintedKey secretOf w.drawn key := by
  cases value with
  | transaction nonce codeVerifier =>
      obtain ⟨a, ha, rfl, -⟩ := hentry
      exact ⟨_, _, _, by decide, (h.tokens a ha).1, (h.tokens a ha).2, rfl⟩
  | userId user =>
      rcases hentry with ⟨a, ha, rfl, -⟩ | ⟨login, hl, rfl, -⟩
      · exact ⟨_, _, _, by decide, (h.tokens a ha).1, (h.tokens a ha).2, rfl⟩
      · obtain ⟨a, ha, hb, -⟩ := (h.logins login hl).1.1
        exact ⟨_, _, _, by decide, hb ▸ (h.tokens a ha).1, h.codes login hl, rfl⟩

theorem entry_of_lookup {value : CachedValue} (h : Sound secretOf w)
    (hlookup : w.lookup key = some value) : Entry w key value := by
  unfold World.lookup at hlookup
  cases hcached : w.cache key with
  | none => simp [hcached] at hlookup
  | some entry =>
      have := h.cached key entry hcached
      simp only [hcached] at hlookup
      split at hlookup <;> simp_all

/-- Nothing is found under a key that was taken before. -/
theorem grows_remove (h : Sound secretOf w) : Grows w (w.remove key task) where
  authorizations := List.Subset.refl _
  matched := List.Subset.refl _
  links := List.Subset.refl _
  logins := List.Subset.refl _
  taken := by
    intro key' task' hlink htaken
    have hnone : w.lookup key' = none := by
      simp [World.lookup, h.spent key' task' hlink htaken]
    by_cases hkey : key' = key
    · subst hkey
      simpa [World.remove, hnone] using htaken
    · unfold World.remove
      split <;> simpa [hkey] using htaken

theorem remove (h : Sound secretOf w) : Sound secretOf (w.remove key task) := by
  have g : Grows w (w.remove key task) := h.grows_remove
  have hgrown := h.grows g rfl rfl
  exact
    { h with
      cached := by
        intro key' entry hcached
        by_cases hkey : key' = key
        · simp [World.remove, hkey] at hcached
        · exact (h.cached key' entry (by simpa [World.remove, hkey] using hcached)).mono g
      taken := by
        intro key' task' htaken
        cases hlookup : w.lookup key with
        | none => exact h.taken key' task' (by simpa [World.remove, hlookup] using htaken)
        | some value =>
            by_cases hkey : key' = key
            · subst hkey
              exact h.mintedKey_of_entry (h.entry_of_lookup hlookup)
            · exact h.taken key' task' (by simpa [World.remove, hlookup, hkey] using htaken)
      spent := by
        intro key' task' hlink htaken
        by_cases hkey : key' = key
        · simp [World.remove, hkey]
        · have hbefore : w.takenBy key' = some task' := by
            cases hlookup : w.lookup key <;> simpa [World.remove, hlookup, hkey] using htaken
          simpa [World.remove, hkey] using h.spent key' task' hlink hbefore
      phases := hgrown.1
      rows := hgrown.2.1
      links := hgrown.2.2.1
      logins := hgrown.2.2.2.1
      sessions := hgrown.2.2.2.2 }

theorem remove_takenBy {value : CachedValue} (hlookup : w.lookup key = some value) :
    (w.remove key task).takenBy key = some task := by
  simp [World.remove, hlookup]

theorem users (h : Sound secretOf w) (users : List User) : Sound secretOf
    { w with users := users } :=
  { h with }

/-- A row that an email was looked up for, or that was created for it. -/
theorem match_row (h : Sound secretOf w) (row : User) :
    Sound secretOf { w with matched := w.matched ++ [row] } := by
  have g : Grows w { w with matched := w.matched ++ [row] } :=
    ⟨List.Subset.refl _, List.subset_append_left _ _, List.Subset.refl _, List.Subset.refl _,
      fun _ _ _ htaken => htaken⟩
  have hgrown := h.grows g rfl rfl
  exact
    { h with
      links := hgrown.2.2.1
      phases := hgrown.1 }

theorem link {linkIntent : Bool} (h : Sound secretOf w) (hchecked : Checked w task verified)
    (hentitled : Entitled w verified user linkIntent) :
    Sound secretOf (w.link verified user linkIntent) := by
  have g : Grows w (w.link verified user linkIntent) :=
    ⟨List.Subset.refl _, List.Subset.refl _, List.subset_append_left _ _, List.Subset.refl _,
      fun _ _ _ htaken => htaken⟩
  have hgrown := h.grows g rfl rfl
  exact
    { h with
      phases := hgrown.1
      rows := forall_mem_concat hgrown.2.1
        ⟨⟨verified, user, linkIntent⟩, by simp [World.link], rfl, rfl, rfl⟩
      links := forall_mem_concat hgrown.2.2.1 ⟨⟨task, hchecked.mono g⟩, hentitled.mono g⟩
      logins := hgrown.2.2.2.1 }

/-- The rows left belong to whom they belonged before. -/
theorem unlink (h : Sound secretOf w) (issuer subject : String) (owner : Nat) :
    Sound secretOf (w.unlink issuer subject owner) := by
  unfold World.unlink
  extract_lets count
  split
  · exact { h with rows := fun row hrow => h.rows row (List.mem_filter.mp hrow).1 }
  · exact h

/-- A login ends the request that holds its state, which no other login does. -/
theorem login (h : Sound secretOf w) (hinj : Function.Injective secretOf)
    (hended : (w.tasks task).isEnded = true) (hnew : ∀ login ∈ w.logins, login.task ≠ task)
    (hchecked : Checked w task verified)
    (hlinked : Linked w verified.identity.issuer verified.identity.subject user) :
    Sound secretOf
      { w with
        drawn := w.drawn + 1
        logins := w.logins ++ [⟨task, verified, user, secretOf w.drawn⟩] } := by
  have g : Grows w
      { w with
        drawn := w.drawn + 1
        logins := w.logins ++ [⟨task, verified, user, secretOf w.drawn⟩] } :=
    ⟨List.Subset.refl _, List.Subset.refl _, List.Subset.refl _, List.subset_append_left _ _,
      fun _ _ _ htaken => htaken⟩
  have hgrown := h.grows g rfl rfl
  have hle : w.drawn ≤ w.drawn + 1 := by omega
  exact
    { h with
      phases := hgrown.1
      sessions := hgrown.2.2.2.2
      tokens := fun a ha => ⟨(h.tokens a ha).1.mono hle, (h.tokens a ha).2.mono hle⟩
      taken := fun key task htaken => (h.taken key task htaken).mono hle
      cached := fun key entry hcached => (h.cached key entry hcached).mono g
      logins := forall_mem_concat h.logins ⟨hchecked, hlinked, hended⟩
      codes := forall_mem_concat (fun login hl => (h.codes login hl).mono hle)
        ⟨w.drawn, by simp, rfl⟩
      loginCodes := by
        apply nodup_map_concat h.loginCodes
        intro login hl hcode
        obtain ⟨m, hm, hcode'⟩ := h.codes login hl
        have := hinj (hcode'.symm.trans hcode)
        omega
      loginStates := by
        apply nodup_map_concat h.loginStates
        intro login hl hstate
        exact hnew login hl (h.holder_unique (h.logins login hl).1 hchecked hstate) }

/-- A session ends the request that holds its code, which no other session does. -/
theorem session {b code : String} (h : Sound secretOf w)
    (hended : (w.tasks task).isEnded = true) (hnew : ∀ session ∈ w.sessions, session.task ≠ task)
    (htaken : w.takenBy (exchangeKey b code) = some task) (hredeemable : Redeemable w b code user) :
    Sound secretOf { w with sessions := w.sessions ++ [⟨task, b, code, user⟩] } :=
  { h with
    sessions := forall_mem_concat h.sessions ⟨htaken, hredeemable, hended⟩
    sessionCodes := by
      apply nodup_map_concat h.sessionCodes
      intro session hs hcode
      obtain ⟨htaken', hredeemable', -⟩ := h.sessions session hs
      rw [hcode] at htaken' hredeemable'
      rw [h.redeemable_browser hredeemable' hredeemable, htaken] at htaken'
      exact hnew session hs (Option.some.inj htaken').symm }

theorem untaken {family b : String} {n : Nat} (h : Sound secretOf w)
    (hinj : Function.Injective secretOf) (hcolon : ∀ n, ':' ∉ (secretOf n).toList)
    (hfamily : ':' ∉ family.toList) (hn : w.drawn ≤ n) :
    w.takenBy (keyOf family b (secretOf n)) = none := by
  cases htaken : w.takenBy (keyOf family b (secretOf n)) with
  | none => rfl
  | some task =>
      obtain ⟨family', _, _, hfamily', ⟨k, -, rfl⟩, ⟨m, hm, rfl⟩, hkey⟩ := h.taken _ task htaken
      have := hinj (keyOf_inj hfamily' hfamily (hcolon k) (hcolon m) hkey).2.2
      omega

/-- Four secrets are drawn for an authorization. -/
theorem authorization (h : Sound secretOf w) (hinj : Function.Injective secretOf)
    (linkUser : Option Nat) :
    Sound secretOf
      { w with
        drawn := w.drawn + 4
        authorizations := w.authorizations ++
          [⟨secretOf w.drawn, secretOf (w.drawn + 1), secretOf (w.drawn + 2), linkUser⟩] } := by
  have g : Grows w
      { w with
        drawn := w.drawn + 4
        authorizations := w.authorizations ++
          [⟨secretOf w.drawn, secretOf (w.drawn + 1), secretOf (w.drawn + 2), linkUser⟩] } :=
    ⟨List.subset_append_left _ _, List.Subset.refl _, List.Subset.refl _, List.Subset.refl _,
      fun _ _ _ htaken => htaken⟩
  have hgrown := h.grows g rfl rfl
  have hle : w.drawn ≤ w.drawn + 4 := by omega
  exact
    { h with
      phases := hgrown.1
      links := hgrown.2.2.1
      logins := hgrown.2.2.2.1
      taken := fun key task htaken => (h.taken key task htaken).mono hle
      codes := fun login hl => (h.codes login hl).mono hle
      cached := fun key entry hcached => (h.cached key entry hcached).mono g
      tokens := forall_mem_concat
        (fun a ha => ⟨(h.tokens a ha).1.mono hle, (h.tokens a ha).2.mono hle⟩)
        ⟨⟨w.drawn, by simp, rfl⟩, w.drawn + 1, by simp, rfl⟩
      states := by
        apply nodup_map_concat h.states
        intro a ha hstate
        obtain ⟨m, hm, hstate'⟩ := (h.tokens a ha).2
        have := hinj (hstate'.symm.trans hstate)
        omega }

/-! ### Steps -/

variable {config : Config}

theorem authorize {linkUser : Option Nat} (h : Sound secretOf w)
    (hinj : Function.Injective secretOf) (hcolon : ∀ n, ':' ∉ (secretOf n).toList) :
    Sound secretOf (w.authorize config secretOf linkUser) := by
  unfold World.authorize
  split
  · exact h
  · have hfresh := h.untaken (b := secretOf w.drawn) hinj hcolon
      (show ':' ∉ "oidc_state".toList by decide) (show w.drawn ≤ w.drawn + 1 by omega)
    have hlogged := h.authorization hinj linkUser
    have hentry : Entry
        { w with
          drawn := w.drawn + 4
          authorizations := w.authorizations ++
            [⟨secretOf w.drawn, secretOf (w.drawn + 1), secretOf (w.drawn + 2), linkUser⟩] }
        (stateKey (secretOf w.drawn) (secretOf (w.drawn + 1)))
        (.transaction (secretOf (w.drawn + 2)) (secretOf (w.drawn + 3))) :=
      ⟨⟨secretOf w.drawn, secretOf (w.drawn + 1), secretOf (w.drawn + 2), linkUser⟩, by simp,
        rfl, rfl⟩
    have hcached := hlogged.set config.stateTtl (.inr hfresh) hentry
    refine hcached.spawn ?_
    cases linkUser with
    | none => trivial
    | some user =>
        exact ⟨⟨secretOf w.drawn, secretOf (w.drawn + 1), secretOf (w.drawn + 2), some user⟩,
          by simp [World.set], rfl, rfl, rfl⟩

/-- The state found is that of the authorization that cached it, and the
transaction cookie its browser's. -/
theorem begun_of_lookup {b s nonce codeVerifier : String} (h : Sound secretOf w)
    (hcolon : ∀ n, ':' ∉ (secretOf n).toList)
    (hlookup : w.lookup (stateKey b s) = some (.transaction nonce codeVerifier)) :
    Begun w ⟨b, s, nonce⟩ := by
  obtain ⟨a, ha, hkey, hnonce⟩ := h.entry_of_lookup hlookup
  obtain ⟨⟨m, -, hb⟩, ⟨n, -, hs⟩⟩ := h.tokens a ha
  obtain ⟨-, rfl, rfl⟩ := keyOf_inj (by decide) (by decide) (hb ▸ hcolon m) (hs ▸ hcolon n) hkey
  exact ⟨a, ha, rfl, rfl, hnonce⟩

theorem asked_of_lookup {b s : String} (h : Sound secretOf w)
    (hcolon : ∀ n, ':' ∉ (secretOf n).toList)
    (hlookup : w.lookup (linkStateKey b s) = some (.userId user)) : Asked w b s user := by
  rcases h.entry_of_lookup hlookup with ⟨a, ha, hkey, huser⟩ | ⟨login, -, hkey, -⟩
  · obtain ⟨⟨m, -, hb⟩, ⟨n, -, hs⟩⟩ := h.tokens a ha
    obtain ⟨-, rfl, rfl⟩ := keyOf_inj (by decide) (by decide) (hb ▸ hcolon m) (hs ▸ hcolon n) hkey
    exact ⟨a, ha, rfl, rfl, huser⟩
  · exact absurd ⟨b, s, hkey.symm⟩ (not_isLinkKey_exchangeKey _ _)

theorem redeemable_of_lookup {b code : String} (h : Sound secretOf w)
    (hcolon : ∀ n, ':' ∉ (secretOf n).toList)
    (hlookup : w.lookup (exchangeKey b code) = some (.userId user)) : Redeemable w b code user := by
  rcases h.entry_of_lookup hlookup with ⟨a, -, hkey, -⟩ | ⟨login, hl, hkey, huser⟩
  · exact absurd ⟨_, _, hkey⟩ (not_isLinkKey_exchangeKey b code)
  · obtain ⟨a, ha, hb, -⟩ := (h.logins login hl).1.1
    obtain ⟨⟨m, -, hm⟩, -⟩ := h.tokens a ha
    obtain ⟨n, -, hn⟩ := h.codes login hl
    obtain ⟨-, rfl, rfl⟩ := keyOf_inj (by decide) (by decide) (hb ▸ hm ▸ hcolon m)
      (hn ▸ hcolon n) hkey
    exact ⟨login, hl, rfl, rfl, huser⟩

theorem callback {b s : String} {allowSignup : Bool} (h : Sound secretOf w)
    (hcolon : ∀ n, ':' ∉ (secretOf n).toList) : Sound secretOf (w.callback b s allowSignup) := by
  unfold World.callback
  extract_lets key phase
  have hremoved : Sound secretOf (w.remove key w.nextTask) := h.remove
  refine hremoved.spawn ?_
  show phase.Sound (w.remove key w.nextTask) w.nextTask
  simp only [phase]
  split
  · next nonce codeVerifier hlookup =>
      exact ⟨(h.begun_of_lookup hcolon hlookup).mono h.grows_remove, remove_takenBy hlookup⟩
  · trivial

theorem exchange {b code : String} (h : Sound secretOf w)
    (hcolon : ∀ n, ':' ∉ (secretOf n).toList) : Sound secretOf (w.exchange b code) := by
  unfold World.exchange
  extract_lets key phase
  have hremoved : Sound secretOf (w.remove key w.nextTask) := h.remove
  refine hremoved.spawn ?_
  show phase.Sound (w.remove key w.nextTask) w.nextTask
  simp only [phase]
  split
  · next user hlookup =>
      exact ⟨remove_takenBy hlookup, (h.redeemable_of_lookup hcolon hlookup).mono h.grows_remove⟩
  · trivial

theorem answer {reply : Option Answer} (h : Sound secretOf w) :
    Sound secretOf (w.answer task reply) := by
  have hphase := h.phases task
  unfold World.answer
  split
  · next transaction allowSignup reply htask =>
      rw [htask] at hphase
      have hrun : (w.tasks task).isRunning = true := by simp [htask, Phase.isRunning]
      split
      · next identity hverified => exact h.advance hrun ⟨hphase.1, hphase.2, hverified⟩
      · exact h.fail hrun
  · next htask => exact h.fail (by simp [htask, Phase.isRunning])
  · exact h

theorem cacheLink {b s : String} (h : Sound secretOf w) (hrun : (w.tasks task).isRunning = true)
    (hasked : Asked w b s user) : Sound secretOf (w.cacheLink config task b s user) := by
  obtain ⟨a, ha, hb, hs, huser⟩ := hasked
  have hcached := h.set config.stateTtl (.inl ⟨b, s, rfl⟩)
    (show Entry w (linkStateKey b s) (.userId user) from .inl ⟨a, ha, by rw [hb, hs], huser⟩)
  show Sound secretOf (World.setPhase task (.ended (.ok s)) _)
  exact hcached.advance hrun trivial

theorem takeLink (h : Sound secretOf w) (hcolon : ∀ n, ':' ∉ (secretOf n).toList)
    (hrun : (w.tasks task).isRunning = true) (hchecked : Checked w task verified) :
    Sound secretOf (w.takeLink task verified) := by
  unfold World.takeLink
  extract_lets key phase
  have g : Grows w (w.remove key task) := h.grows_remove
  refine h.remove.advance hrun ?_
  simp only [phase]
  split
  · next user hlookup =>
      exact ⟨hchecked.mono g, Asked.mono g (h.asked_of_lookup hcolon hlookup)⟩
  · trivial
  · exact hchecked.mono g

theorem linked_of_identityUser {identity : VerifiedOidcIdentity} (h : Sound secretOf w)
    (hfound : w.identityUser identity = some user) :
    Linked w identity.issuer identity.subject user := by
  obtain ⟨row, hrow, rfl⟩ := Option.map_eq_some_iff.mp hfound
  have hsame : row.issuer = identity.issuer ∧ row.subject = identity.subject := by
    simpa using List.find?_some hrow
  rw [← hsame.1, ← hsame.2]
  exact h.rows row (List.mem_of_find?_eq_some hrow)

theorem findUser (h : Sound secretOf w) (hrun : (w.tasks task).isRunning = true)
    (hchecked : Checked w task verified) : Sound secretOf (w.findUser task verified) := by
  unfold World.findUser
  split
  · next user hfound => exact h.advance hrun ⟨hchecked, h.linked_of_identityUser hfound⟩
  · split
    · exact h.fail hrun
    · next email hemail =>
        split
        · exact h.fail hrun
        · exact h.advance hrun ⟨hchecked, hemail⟩

theorem matchEmail {email : String} (h : Sound secretOf w)
    (hrun : (w.tasks task).isRunning = true) (hchecked : Checked w task verified)
    (hemail : verified.identity.email = some email) :
    Sound secretOf (w.matchEmail task verified email) := by
  unfold World.matchEmail
  split
  · next row hfound =>
      have hrow : row.email = email ∧ row.deleted = false := by
        simpa using List.find?_some hfound
      refine (h.match_row row).advance hrun ⟨hchecked, row, by simp, ?_, rfl, hrow.2⟩
      rw [hemail, hrow.1]
  · split
    · exact h.advance hrun ⟨hchecked, hemail⟩
    · exact h.fail hrun

theorem createOidcUser {email : String} (h : Sound secretOf w)
    (hrun : (w.tasks task).isRunning = true) (hchecked : Checked w task verified)
    (hemail : verified.identity.email = some email) :
    Sound secretOf (w.createOidcUser task verified email) := by
  unfold World.createOidcUser
  split
  · exact h.fail hrun
  · have hrow := (h.match_row (w.newUser email true)).users (w.users ++ [w.newUser email true])
    exact hrow.advance hrun ⟨hchecked, w.newUser email true, by simp, hemail, rfl, rfl⟩

theorem upsertIdentity {linkIntent : Bool} (h : Sound secretOf w)
    (hrun : (w.tasks task).isRunning = true) (hchecked : Checked w task verified)
    (hentitled : Entitled w verified user linkIntent) :
    Sound secretOf (w.upsertIdentity task verified user linkIntent) := by
  unfold World.upsertIdentity
  split
  · refine (h.link hchecked hentitled).advance hrun ⟨hchecked, ?_⟩
    exact ⟨⟨verified, user, linkIntent⟩, by simp [World.link], rfl, rfl, rfl⟩
  · next owner howner =>
      split
      · next heq =>
          subst heq
          exact h.advance hrun ⟨hchecked, h.linked_of_identityUser howner⟩
      · exact h.fail hrun

/-- What has ended does not end again. -/
theorem login_task_ne (h : Sound secretOf w) (hrun : (w.tasks task).isRunning = true) :
    ∀ login ∈ w.logins, login.task ≠ task := by
  rintro login hl rfl
  have := (h.logins login hl).2.2
  rw [Phase.isEnded_of_isRunning hrun] at this
  cases this

theorem session_task_ne (h : Sound secretOf w) (hrun : (w.tasks task).isRunning = true) :
    ∀ session ∈ w.sessions, session.task ≠ task := by
  rintro session hs rfl
  have := (h.sessions session hs).2.2
  rw [Phase.isEnded_of_isRunning hrun] at this
  cases this

theorem finishCallback {linkIntent : Bool} (h : Sound secretOf w)
    (hinj : Function.Injective secretOf) (hcolon : ∀ n, ':' ∉ (secretOf n).toList)
    (hrun : (w.tasks task).isRunning = true) (hchecked : Checked w task verified)
    (hlinked : Linked w verified.identity.issuer verified.identity.subject user) :
    Sound secretOf (w.finishCallback config secretOf task verified user linkIntent) := by
  unfold World.finishCallback
  split
  · exact h.fail hrun
  · split
    · show Sound secretOf (World.setPhase task (.ended (.ok "")) _)
      exact h.advance hrun trivial
    · -- the request ends first, so that its login is the only one of it
      have hdone : Sound secretOf (w.setPhase task (.ended (.ok (secretOf w.drawn)))) :=
        h.advance hrun trivial
      have hlogin := hdone.login hinj (by simp [World.setPhase, Phase.isEnded])
        (h.login_task_ne hrun) hchecked hlinked
      have hfresh := h.untaken (b := verified.transaction.browserTransaction) hinj hcolon
        (show ':' ∉ "oidc_exchange".toList by decide) (Nat.le_refl w.drawn)
      refine hlogin.set config.stateTtl (.inr hfresh) ?_
      show Entry _ _ (.userId user)
      exact Or.inr ⟨⟨task, verified, user, secretOf w.drawn⟩, by simp [World.setPhase], rfl, rfl⟩

theorem finishExchange {b code : String} (h : Sound secretOf w)
    (hrun : (w.tasks task).isRunning = true)
    (htaken : w.takenBy (exchangeKey b code) = some task) (hredeemable : Redeemable w b code user) :
    Sound secretOf (w.finishExchange task b code user) := by
  unfold World.finishExchange
  split
  · exact h.fail hrun
  · have hdone : Sound secretOf (w.setPhase task (.ended (.ok code))) := h.advance hrun trivial
    exact hdone.session (by simp [World.setPhase, Phase.isEnded]) (h.session_task_ne hrun) htaken
      hredeemable

theorem next (h : Sound secretOf w) (hinj : Function.Injective secretOf)
    (hcolon : ∀ n, ':' ∉ (secretOf n).toList) : Sound secretOf (w.next config secretOf task) := by
  have hphase := h.phases task
  have hrun : ∀ phase, w.tasks task = phase → phase.isRunning = true →
      (w.tasks task).isRunning = true := fun _ htask hrun => by rw [htask, hrun]
  unfold World.next
  cases htask : w.tasks task with
  | idle => exact h
  | ended result => exact h
  | verifying transaction allowSignup => exact h
  | linking b s user =>
      rw [htask] at hphase
      exact h.cacheLink (hrun _ htask rfl) hphase
  | takingLink verified =>
      rw [htask] at hphase
      exact h.takeLink hcolon (hrun _ htask rfl) hphase
  | finding verified =>
      rw [htask] at hphase
      exact h.findUser (hrun _ htask rfl) hphase
  | touching verified user =>
      rw [htask] at hphase
      exact h.advance (hrun _ htask rfl) hphase
  | matching verified email =>
      rw [htask] at hphase
      exact h.matchEmail (hrun _ htask rfl) hphase.1 hphase.2
  | creating verified email =>
      rw [htask] at hphase
      exact h.createOidcUser (hrun _ htask rfl) hphase.1 hphase.2
  | upserting verified user linkIntent =>
      rw [htask] at hphase
      exact h.upsertIdentity (hrun _ htask rfl) hphase.1 hphase.2
  | loading verified user linkIntent =>
      rw [htask] at hphase
      exact h.finishCallback hinj hcolon (hrun _ htask rfl) hphase.1 hphase.2
  | exchanging b code user =>
      rw [htask] at hphase
      exact h.finishExchange (hrun _ htask rfl) hphase.1 hphase.2

theorem step (h : Sound secretOf w) (hinj : Function.Injective secretOf)
    (hcolon : ∀ n, ':' ∉ (secretOf n).toList) (action : Action) :
    Sound secretOf (w.step config secretOf action) := by
  cases action with
  | tick elapsed => exact { h with }
  | authorize linkUser => exact h.authorize hinj hcolon
  | callback b s allowSignup => exact h.callback hcolon
  | answer task reply => exact h.answer
  | exchange b code => exact h.exchange hcolon
  | unlink issuer subject owner => exact h.unlink issuer subject owner
  | addUser email =>
      show Sound secretOf (if (w.userByEmail email).isSome then w else _)
      split
      · exact h
      · exact h.users _
  | setUser id email activated deleted oidcOnly =>
      show Sound secretOf (w.setUser id email activated deleted oidcOnly)
      unfold World.setUser
      split
      · exact h
      · exact h.users _
  | proceed task succeeds =>
      cases succeeds with
      | true => exact h.next hinj hcolon
      | false =>
          cases htask : w.tasks task <;> simp only [World.step, htask] <;>
            first
            | exact h
            | exact h.fail (by rw [htask]; rfl)

theorem run (hinj : Function.Injective secretOf) (hcolon : ∀ n, ':' ∉ (secretOf n).toList) :
    (World.system config secretOf).Inductive (Sound secretOf) where
  init := init
  step := fun _ action h => h.step hinj hcolon action

end Sound

end Invariant

/-! ## Authentication -/

/-- The provider vouches for the email: it says that it verified it, in the
token or for the token's subject. -/
def VouchedEmail (answer : Answer) (identity : VerifiedOidcIdentity) (email : String) : Prop :=
  (answer.claims.email = some email ∧ answer.claims.emailVerified = some true) ∨
    ∃ info, answer.userInfo = some info ∧ info.sub = identity.subject ∧
      info.email = some email ∧ info.emailVerified = some true

theorem explicitlyVerifiedEmail_eq_some {email? : Option String} {verified? : Option Bool}
    {email : String} (h : explicitlyVerifiedEmail email? verified? = some email) :
    email? = some email ∧ verified? = some true := by
  unfold explicitlyVerifiedEmail at h
  split at h
  · exact ⟨h, by assumption⟩
  · cases h

/-- What an accepted answer says. -/
theorem verifyAnswer_ok {nonce : String} {answer : Answer} {identity : VerifiedOidcIdentity}
    (h : verifyAnswer nonce answer = .ok identity) :
    answer.claims.nonce = some nonce ∧ identity.issuer = answer.claims.iss ∧
      identity.subject = answer.claims.sub ∧
        ∀ email, identity.email = some email → VouchedEmail answer identity email := by
  unfold verifyAnswer at h
  split at h
  · cases h
  · next hnonce =>
      refine ⟨not_not.mp hnonce, ?_⟩
      dsimp only at h
      split at h
      · next info hnone hinfo =>
          split at h
          · cases h
          · next hsub =>
              obtain rfl := Except.ok.inj h
              refine ⟨rfl, rfl, fun email hemail => .inr ⟨info, hinfo, not_not.mp hsub, ?_⟩⟩
              exact explicitlyVerifiedEmail_eq_some hemail
      · obtain rfl := Except.ok.inj h
        exact ⟨rfl, rfl, fun email hemail => .inl (explicitlyVerifiedEmail_eq_some hemail)⟩

/-- The answer was accepted for an authorization of the same browser. -/
def Answered (w : World) (verified : Verified) : Prop :=
  ∃ a ∈ w.authorizations,
    a.browserTransaction = verified.transaction.browserTransaction ∧
      a.state = verified.transaction.state ∧
        verified.answer.claims.nonce = some a.nonce ∧
          verified.identity.issuer = verified.answer.claims.iss ∧
            verified.identity.subject = verified.answer.claims.sub

theorem Checked.answered {w : World} {task : Nat} {verified : Verified}
    (h : Checked w task verified) : Answered w verified := by
  obtain ⟨⟨a, ha, hb, hs, hnonce⟩, -, hanswer⟩ := h
  obtain ⟨hclaims, hissuer, hsubject, -⟩ := verifyAnswer_ok hanswer
  exact ⟨a, ha, hb, hs, by rw [hclaims, hnonce], hissuer, hsubject⟩

/-- Who was let in, and on what grounds. -/
structure Authenticated (w : World) : Prop where
  session : ∀ session ∈ w.sessions,
    Redeemable w session.browserTransaction session.code session.user
  codeOnce : (w.sessions.map Session.code).Nodup
  login : ∀ login ∈ w.logins, Answered w login.verified ∧
    Linked w login.verified.identity.issuer login.verified.identity.subject login.user
  stateOnce : (w.authorizations.map Authorization.state).Nodup ∧
    (w.logins.map fun login => login.verified.transaction.state).Nodup
  link : ∀ link ∈ w.links, Answered w link.verified ∧
    if link.linkIntent then
      Asked w link.verified.transaction.browserTransaction link.verified.transaction.state link.user
    else
      ∃ row ∈ w.matched, row.id = link.user ∧ row.deleted = false ∧
        VouchedEmail link.verified.answer link.verified.identity row.email

theorem Sound.authenticated {secretOf : Nat → String} {w : World} (h : Sound secretOf w) :
    Authenticated w where
  session := fun session hs => (h.sessions session hs).2.1
  codeOnce := h.sessionCodes
  login := fun login hl => ⟨(h.logins login hl).1.answered, (h.logins login hl).2.1⟩
  stateOnce := ⟨h.states, h.loginStates⟩
  link := by
    intro link hlink
    obtain ⟨⟨task, hchecked⟩, hentitled⟩ := h.links link hlink
    refine ⟨hchecked.answered, ?_⟩
    unfold Entitled at hentitled
    split at hentitled
    · next hintent => simpa [hintent] using hentitled
    · next hintent =>
        obtain ⟨row, hrow, hemail, hid, hdeleted⟩ := hentitled
        have hvouched := (verifyAnswer_ok hchecked.2.2).2.2.2 row.email hemail
        simp only [hintent]
        exact ⟨row, hrow, hid, hdeleted, hvouched⟩

/-- Whatever browsers, identity providers and administrators do, in any order. -/
theorem sessions_authenticated (config : Config) (secretOf : Nat → String)
    (hinj : Function.Injective secretOf) (hcolon : ∀ n, ':' ∉ (secretOf n).toList) :
    (World.system config secretOf).Invariant Authenticated :=
  (Sound.run hinj hcolon).invariant.mono fun _ h => h.authenticated

/-- Secrets written in unary. -/
def unarySecret (n : Nat) : String := String.ofList (List.replicate (n + 1) 'a')

theorem unarySecret_injective : Function.Injective unarySecret := by
  intro m n h
  have hlength := congrArg List.length (String.ofList_injective h)
  simpa using hlength

theorem unarySecret_colon (n : Nat) : ':' ∉ (unarySecret n).toList := by
  simp [unarySecret]

/-- A browser signs up and opens a session. -/
def signUp : List Action :=
  [ .authorize none
  , .callback (unarySecret 0) (unarySecret 1) true
  , .answer 1
      (some
        { claims :=
            { iss := "https://idp.example"
              sub := "248289761001"
              email := some "jane@example.com"
              emailVerified := some true
              nonce := some (unarySecret 2) }
          userInfo := none })
  , .proceed 1 true
  , .proceed 1 true
  , .proceed 1 true
  , .proceed 1 true
  , .proceed 1 true
  , .proceed 1 true
  , .exchange (unarySecret 0) (unarySecret 4)
  , .proceed 2 true ]

theorem sessions_authenticated_signUp :
    (((World.system ⟨true, 600⟩ unarySecret).run {} signUp).sessions.map Session.user = [0]) ∧
      Authenticated ((World.system ⟨true, 600⟩ unarySecret).run {} signUp) :=
  ⟨by decide,
    sessions_authenticated ⟨true, 600⟩ unarySecret unarySecret_injective unarySecret_colon _
      ⟨signUp, rfl⟩⟩

end Conduit.Access.OidcLogin
