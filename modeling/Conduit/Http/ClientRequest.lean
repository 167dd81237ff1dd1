import Conduit.Base.Text
import Conduit.Pipeline.Http

/-!
# Client requests

The credential of a client is taken from one of three places of its request.
The pipeline is given a request that is built from all of it.
-/

namespace Conduit.Http

open Base.Text Pipeline

/-! ## Requests as they arrive -/

structure Uri where
  scheme : Option String
  authority : Option String
  path : String
  query : Option String

/-- The bytes of a header value. -/
abbrev HeaderValue := List UInt8

/-- The values of each header, by its name in lower case. -/
abbrev HeaderMap := String → List HeaderValue

structure ClientRequest where
  method : String
  uri : Uri
  headers : HeaderMap
  body : List UInt8

/-- `HeaderValue::to_str`: visible ASCII only. -/
def HeaderValue.toStr (value : HeaderValue) : Option String :=
  if value.all fun b => (32 ≤ b && b < 127) || b == 9 then
    some (String.ofList (value.map fun b => Char.ofNat b.toNat))
  else none

/-- `headers.get(name)` as text. -/
def HeaderMap.text (headers : HeaderMap) (name : String) : Option String :=
  (headers name).head?.bind HeaderValue.toStr

def hexDigit (b : UInt8) : Option UInt8 :=
  if 48 ≤ b ∧ b ≤ 57 then some (b - 48)
  else if 97 ≤ b ∧ b ≤ 102 then some (b - 97 + 10)
  else if 65 ≤ b ∧ b ≤ 70 then some (b - 65 + 10)
  else none

/-- The byte that `%XX` stands for. -/
def hexByte (high low : UInt8) : Option UInt8 :=
  match hexDigit high, hexDigit low with
  | some high, some low => some (high <<< 4 ||| low)
  | _, _ => none

/-! ## The credential -/

inductive ApiKeySource
  | bearer
  | geminiHeader
  | queryParam
deriving DecidableEq, Repr

structure RawApiKey where
  value : String
  source : ApiKeySource
deriving DecidableEq, Repr

namespace ApiKeyAuth

/-- Decodes `%XX`, and `+` as a space. Every byte is a character. -/
def percentDecode : List UInt8 → List Char
  | [] => []
  | b :: high :: low :: rest =>
      if b = 43 then ' ' :: percentDecode (high :: low :: rest)
      else
        match if b = 37 then hexByte high low else none with
        | some decoded => Char.ofNat decoded.toNat :: percentDecode rest
        | none => Char.ofNat b.toNat :: percentDecode (high :: low :: rest)
  | b :: bytes => (if b = 43 then ' ' else Char.ofNat b.toNat) :: percentDecode bytes

def extractBearerKey (headers : HeaderMap) : Option String :=
  (headers.text "authorization").bind fun raw =>
    if startsWith raw "Bearer " then
      nonEmptyTrimmed (some (String.ofList (raw.toList.drop "Bearer ".toList.length)))
    else none

def extractGeminiHeaderKey (headers : HeaderMap) : Option String :=
  nonEmptyTrimmed (headers.text "x-goog-api-key")

/-- The credential in one `name=value` pair of a query. -/
def pairKey (pair : List Char) : Option String :=
  let (k, v) := (splitAtFirst ['='] pair).getD (pair, [])
  if k = "key".toList then
    nonEmptyTrimmed (some (String.ofList (percentDecode (asBytes (String.ofList v)))))
  else none

def extractQueryKey (uri : Uri) : Option String :=
  uri.query.bind fun query => (query.toList.splitOn '&').findSome? pairKey

/-- `extract_api_key`. -/
def extractApiKey (headers : HeaderMap) (uri : Uri) : Option RawApiKey :=
  match extractBearerKey headers with
  | some key => some ⟨key, .bearer⟩
  | none =>
      match extractGeminiHeaderKey headers with
      | some key => some ⟨key, .geminiHeader⟩
      | none => (extractQueryKey uri).map fun key => ⟨key, .queryParam⟩

end ApiKeyAuth

/-! ## The request of the pipeline -/

namespace OpenAiHandlers

/-- Decodes `%XX` and leaves `+` as it is. -/
def percentDecodeBytes : List UInt8 → List UInt8
  | [] => []
  | b :: high :: low :: rest =>
      match if b = 37 then hexByte high low else none with
      | some decoded => decoded :: percentDecodeBytes rest
      | none => b :: percentDecodeBytes (high :: low :: rest)
  | b :: bytes => b :: percentDecodeBytes bytes

def percentDecode (input : List Char) : String :=
  fromUtf8Lossy (percentDecodeBytes (asBytes (String.ofList input)))

def decodePair (pair : List Char) : String × String :=
  match splitAtFirst ['='] pair with
  | none => (percentDecode pair, "")
  | some (key, value) => (percentDecode key, percentDecode value)

def urlencodingDecodeQuery (query : String) : List (String × String) :=
  (query.toList.splitOn '&').map decodePair

/-- `entry(key).or_default().push(value)`. -/
def pushValue (query : QueryMap) (pair : String × String) : QueryMap :=
  Function.update query pair.1 (some ((query pair.1).getD [] ++ [pair.2]))

/-- The values of a header that are text, with commas between them. -/
def joinValues (values : List HeaderValue) : String :=
  values.foldl (fun joined value =>
    match value.toStr with
    | some text => (if joined = "" then joined else joined ++ ",") ++ text
    | none => joined) ""

def firstOfList (text : String) : String := trim (String.ofList (text.toList.takeWhile (· != ',')))

def schemeFor (uri : Uri) (headers : HeaderMap) : String :=
  match (headers.text "x-forwarded-proto").filter (· ≠ "") with
  | some forwarded => firstOfList forwarded
  | none => uri.scheme.getD "http"

def authorityFor (uri : Uri) (headers : HeaderMap) : Option String :=
  match (headers.text "x-forwarded-host").filter (· ≠ "") with
  | some forwarded => some (firstOfList forwarded)
  | none => uri.authority.or (headers.text "host")

/-- `uri.to_string()`. -/
def Uri.display (uri : Uri) : String :=
  (uri.scheme.map (· ++ "://")).getD "" ++ uri.authority.getD "" ++ uri.path ++
    (uri.query.map ("?" ++ ·)).getD ""

/-- `metadata` is what the handlers stamp for the middlewares: trace and thread
ids, the route and the identity of the validated key. -/
def buildOpenaiHttpRequest (metadata : String → Option JsonValue) (request : ClientRequest) :
    HttpRequest :=
  let headers : Headers := fun name =>
    if startsWith name ":" then none
    else
      let joined := joinValues (request.headers name)
      if joined = "" then none else some joined
  { HttpRequest.empty with
    method := request.method
    path := request.uri.path
    url := (authorityFor request.uri request.headers).map fun authority =>
      schemeFor request.uri request.headers ++ "://" ++ authority ++ Uri.display request.uri
    query := match request.uri.query with
      | none => fun _ => none
      | some query => (urlencodingDecodeQuery query).foldl pushValue fun _ => none
    headers
    contentType := headers "content-type"
    body := some request.body
    metadata }

end OpenAiHandlers

end Conduit.Http
