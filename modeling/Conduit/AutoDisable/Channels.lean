import Conduit.AutoDisable.Counter
import Conduit.Base.Json
import Conduit.Base.Text

/-!
# Disabling keys and channels

A key is disabled in a transaction that holds the row of its channel, a
channel without keys with one statement. Either is one step; the channel goes
with its last key.
-/

namespace Conduit.AutoDisable

open Base

/-! ## Keys of a channel -/

structure DisabledApiKey where
  key : String
  disabledAt : Int
  errorCode : Nat
  reason : String

structure ChannelCredentials where
  apiKey : String
  oauth : Option Json
  apiKeys : List String

/-- `is_oauth_json`. -/
def isOauthJson (text : String) : Bool :=
  (Text.trimmed text).head? = some '\x7b' ∧
    (Text.splitAtFirst "access_token".toList (Text.trimmed text)).isSome

namespace ChannelCredentials

def isOauth (credentials : ChannelCredentials) : Bool :=
  (credentials.oauth.bind fun oauth => oauth.strField "access_token").any (fun token => token ≠ "") ||
    isOauthJson credentials.apiKey

def allApiKeys (credentials : ChannelCredentials) : List String :=
  (if credentials.apiKey ≠ "" ∧ credentials.isOauth = false then [credentials.apiKey] else []) ++
    credentials.apiKeys

/-- A disabled key without text is no key. -/
def enabledApiKeys (credentials : ChannelCredentials) (disabled : List DisabledApiKey) : List String :=
  credentials.allApiKeys.filter fun key =>
    ¬(key ≠ "" ∧ key ∈ disabled.map DisabledApiKey.key)

end ChannelCredentials

/-! ## Rows -/

/-- A channel; `none` stands for a column that does not decode. -/
structure ChannelRow where
  name : String
  provider : String
  baseUrl : Option String
  status : String
  credentials : Option ChannelCredentials
  disabledApiKeys : Option (List DisabledApiKey)
  errorMessage : Option String
  deletedAt : Int

namespace ChannelRow

/-- In use: a step may disable it. -/
def IsEnabled (row : ChannelRow) : Prop := row.status = "enabled" ∧ row.deletedAt = 0

instance (row : ChannelRow) : Decidable row.IsEnabled :=
  inferInstanceAs (Decidable (_ ∧ _))

def enabledKeys (row : ChannelRow) : List String :=
  (row.credentials.map fun credentials =>
    credentials.enabledApiKeys (row.disabledApiKeys.getD [])).getD []

end ChannelRow

structure ChannelDisabledEvent where
  channelId : Int
  channelName : String
  channelProvider : String
  channelBaseUrl : String
  statusCode : Nat
  threshold : Int
  actualCount : Int
  reason : String
  occurredAt : Int

/-! ## Steps -/

def deriveErrorMessage (errorCode : Nat) : String :=
  match errorCode with
  | 400 => "Bad Request"
  | 401 => "Unauthorized"
  | 403 => "Forbidden"
  | 404 => "Not Found"
  | 408 => "Request Timeout"
  | 429 => "Too Many Requests"
  | 500 => "Internal Server Error"
  | 502 => "Bad Gateway"
  | 503 => "Service Unavailable"
  | 504 => "Gateway Timeout"
  | _ => s!"Error {errorCode}"

/-- The event of a channel that a step disables. -/
def disabledEvent (row : ChannelRow) (channelId : Int) (status : Nat) (threshold actualCount : Int)
    (reason : String) (now : Int) : ChannelDisabledEvent where
  channelId := channelId
  channelName := row.name
  channelProvider := row.provider
  channelBaseUrl := row.baseUrl.getD ""
  statusCode := status
  threshold := threshold
  actualCount := actualCount
  reason := reason
  occurredAt := now

/-- What a step answers: an event, nothing, or that a column does not decode. -/
inductive StepResult
  | event (event : ChannelDisabledEvent)
  | nothing
  | undecodable

def disableChannel (row : ChannelRow) (channelId : Int) (status : Nat) (threshold actualCount : Int)
    (now : Int) : ChannelRow × StepResult :=
  let reason := deriveErrorMessage status
  if row.status = "enabled" ∧ row.deletedAt = 0 then
    ({ row with status := "disabled", errorMessage := some reason },
      .event (disabledEvent row channelId status threshold actualCount reason now))
  else (row, .nothing)

def disableCredential (row : ChannelRow) (channelId : Int) (credential : String) (status : Nat)
    (threshold actualCount : Int) (now : Int) : ChannelRow × StepResult :=
  if row.deletedAt ≠ 0 then (row, .nothing)
  else if row.status ≠ "enabled" then (row, .nothing)
  else
    match row.credentials, row.disabledApiKeys with
    | none, _ => (row, .undecodable)
    | some credentials, disabled =>
        if credential ∉ credentials.allApiKeys then (row, .nothing)
        else
          match disabled with
          | none => (row, .undecodable)
          | some disabled =>
              if credential ∈ disabled.map DisabledApiKey.key then (row, .nothing)
              else
                let disabled := disabled ++ [{
                  key := credential
                  disabledAt := now
                  errorCode := status
                  reason :=
                    s!"Auto-disabled after {actualCount} consecutive errors with status {status}" }]
                let reason := s!"All API keys disabled (last error: {status})"
                if (credentials.enabledApiKeys disabled).isEmpty then
                  ({ row with
                      disabledApiKeys := some disabled
                      status := "disabled"
                      errorMessage := some reason },
                    .event (disabledEvent row channelId status threshold actualCount reason now))
                else ({ row with disabledApiKeys := some disabled }, .nothing)

/-- The channel of an action. -/
def DisableAction.channelId : DisableAction → Int
  | .channel channelId _ _ _ => channelId
  | .credential channelId _ _ _ _ => channelId

def applyDisableAction (row : ChannelRow) (action : DisableAction) (now : Int) :
    ChannelRow × StepResult :=
  match action with
  | .channel channelId status threshold actualCount =>
      disableChannel row channelId status threshold actualCount now
  | .credential channelId credential status threshold actualCount =>
      disableCredential row channelId credential status threshold actualCount now

end Conduit.AutoDisable
