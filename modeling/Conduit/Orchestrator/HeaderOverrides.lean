import Conduit.Pipeline.Http
import Mathlib

/-!
# Header overrides

The headers of an upstream request are a map with case-sensitive keys until the
executor appends them to a case-insensitive one. The merge, the stamp, the
override operations and the default user agent write that map in turn. Two
spellings of a name that are both left in it are two values on the wire: a name
has one value exactly when of every two spellings one is withdrawn, that is taken
out again under that very spelling (`Withdrawn`), and when none of the writers
that come after the overrides has another value for it.
-/

namespace Conduit.Orchestrator.HeaderOverrides

open Base Base.Text Pipeline

/-! ## The override middleware -/

structure OverrideOperation where
  op : String
  path : String := ""
  fromKey : String := ""
  toKey : String := ""
  value : String := ""
deriving DecidableEq, Repr

structure HeaderEntry where
  key : String
  value : String
deriving DecidableEq, Repr

/-- The value that stands for a deletion. -/
def overrideClear : String := "__CONDUIT_CLEAR__"

def removeHeader (name : String) (headers : Headers) : Headers :=
  Function.update headers name none

def applyOverrideOperationToHeaders (headers : Headers) (op : OverrideOperation) : Headers :=
  if op.op = "set" then
    if op.value = overrideClear then removeHeader op.path headers
    else headers.insert op.path op.value
  else if op.op = "delete" then removeHeader op.path headers
  else if op.op = "rename" then
    match headers op.fromKey with
    | some value => (removeHeader op.fromKey headers).insert op.toKey value
    | none => headers
  else if op.op = "copy" then
    match headers op.fromKey with
    | some value => headers.insert op.toKey value
    | none => headers
  else headers

/-- A static header with an empty key is skipped. -/
def applyStaticHeader (headers : Headers) (entry : HeaderEntry) : Headers :=
  if entry.key = "" then headers else headers.insert entry.key entry.value

/-- What the middleware reads from the metadata of the channel. -/
structure Overrides where
  bodyOps : List OverrideOperation
  headerOps : List OverrideOperation
  staticHeaders : List HeaderEntry

/-- The headers `OverrideRequestMiddleware` leaves. -/
def overrideHeaders (overrides : Overrides) (headers : Headers) : Headers :=
  let bodyOps := overrides.bodyOps.filter fun op => startsWith op.op "header_"
  overrides.staticHeaders.foldl applyStaticHeader
    (overrides.headerOps.foldl applyOverrideOperationToHeaders
      (bodyOps.foldl applyOverrideOperationToHeaders headers))

def userAgentHeader : String := "User-Agent"

/-- The headers `DefaultUserAgentMiddleware` leaves. -/
def defaultUserAgent (passThrough : Bool) (headers : Headers) : Headers :=
  if passThrough then
    if (headers userAgentHeader).isSome then headers
    else headers.insert userAgentHeader "conduit/1.0"
  else headers.insert userAgentHeader "conduit/1.0"

/-- The request the outbound middlewares get. -/
def stampedRequest (outbound inbound : HttpRequest) (target : PipelineCandidate) : HttpRequest :=
  stampOutboundTarget (mergeInbound outbound inbound) target

/-- The request the executor gets. -/
def preparedRequest (outbound inbound : HttpRequest) (target : PipelineCandidate)
    (overrides : Overrides) (passThrough : Bool) : HttpRequest :=
  let stamped := stampedRequest outbound inbound target
  { stamped with
    headers := defaultUserAgent passThrough (overrideHeaders overrides stamped.headers) }

/-! ## The executor -/

def lowercase (name : String) : String := String.ofList (name.toList.map Char.toLower)

/-- Names and values as the HTTP library takes them. -/
structure HeaderCodec where
  /-- `HeaderName::from_bytes` accepts the name, which it lower-cases. -/
  validName : String → Bool
  validName_lowercase : ∀ name : String, validName (lowercase name) = validName name
  validName_contentType : validName "content-type" = true
  /-- `HeaderValue::from_str` accepts the text. -/
  validValue : String → Bool
  validValue_printable : ∀ value : String,
    value.toList.all (fun c => ' '.toNat ≤ c.toNat && c.toNat ≤ '~'.toNat) = true →
      validValue value = true

/-- The header is no reason to skip it. -/
def HeaderCodec.takes (codec : HeaderCodec) (name value : String) : Bool :=
  codec.validName name && codec.validValue value

/-- The library's multimap, with canonical names. -/
abbrev WireHeaders := List (String × String)

def getAll (wire : WireHeaders) (name : String) : List String :=
  (wire.filter fun entry => entry.1 = name).map Prod.snd

/-- `HeaderMap::insert`: in place of every value of the name. -/
def replaceAll (name value : String) (wire : WireHeaders) : WireHeaders :=
  (wire.filter fun entry => entry.1 ≠ name) ++ [(name, value)]

/-- The entries of the map in key order. -/
structure Listed (headers : Headers) where
  entries : List (String × String)
  nodup : (entries.map Prod.fst).Nodup
  mem_iff : ∀ key value : String, (key, value) ∈ entries ↔ headers key = some value

def wireEntry (codec : HeaderCodec) (entry : String × String) : Option (String × String) :=
  if codec.takes entry.1 entry.2 then some (lowercase entry.1, entry.2) else none

def headerMapFromLlm (codec : HeaderCodec) (entries : List (String × String)) : WireHeaders :=
  entries.filterMap (wireEntry codec)

def authValue (auth : Option HttpAuth) : Option String :=
  auth.bind fun auth => auth.token.map fun token =>
    (if trim auth.scheme = "" then "Bearer" else auth.scheme) ++ " " ++ token

/-- The headers of `send`, none when the authorization is no header value. -/
def sentHeaders (codec : HeaderCodec) (request : HttpRequest)
    (entries : List (String × String)) : Option WireHeaders :=
  let outbound := headerMapFromLlm codec entries
  let authorized :=
    match authValue request.auth with
    | some value =>
        if codec.validValue value then some (replaceAll "authorization" value outbound) else none
    | none => some outbound
  authorized.map fun outbound =>
    if request.body.isNone && request.jsonBody.isSome && (getAll outbound "content-type").isEmpty then
      ("content-type", "application/json") :: outbound
    else outbound

/-! ## The writes -/

inductive Write
  | operation (op : OverrideOperation)
  | static (entry : HeaderEntry)
  | userAgent (passThrough : Bool)

namespace Write

def apply (headers : Headers) : Write → Headers
  | operation op => applyOverrideOperationToHeaders headers op
  | static entry => applyStaticHeader headers entry
  | userAgent passThrough => defaultUserAgent passThrough headers

/-- The write sets the key to the value, or deletes it. -/
inductive Effect (key : String) (headers : Headers) : Write → Option String → Prop
  | set {op : OverrideOperation} : op.op = "set" → op.path = key → op.value ≠ overrideClear →
      Effect key headers (.operation op) (some op.value)
  | clear {op : OverrideOperation} : op.op = "set" → op.path = key → op.value = overrideClear →
      Effect key headers (.operation op) none
  | delete {op : OverrideOperation} : op.op = "delete" → op.path = key →
      Effect key headers (.operation op) none
  | renamedTo {op : OverrideOperation} {value : String} : op.op = "rename" → op.toKey = key →
      headers op.fromKey = some value → Effect key headers (.operation op) (some value)
  | renamedFrom {op : OverrideOperation} : op.op = "rename" → op.fromKey = key → op.toKey ≠ key →
      headers key ≠ none → Effect key headers (.operation op) none
  | copied {op : OverrideOperation} {value : String} : op.op = "copy" → op.toKey = key →
      headers op.fromKey = some value → Effect key headers (.operation op) (some value)
  | static {entry : HeaderEntry} : entry.key = key → key ≠ "" →
      Effect key headers (.static entry) (some entry.value)
  | userAgent {passThrough : Bool} : userAgentHeader = key →
      (passThrough = true → headers userAgentHeader = none) →
      Effect key headers (.userAgent passThrough) (some "conduit/1.0")

/-- None of the writes, made one after the other, does anything to the key. -/
def Untouched (key : String) : Headers → List Write → Prop
  | _, [] => True
  | headers, write :: writes =>
      (∀ result : Option String, ¬ Effect key headers write result) ∧
        Untouched key (write.apply headers) writes

/-- A write of the run, with the headers it finds and the writes that follow it. -/
inductive Occurs : Headers → List Write → Headers → Write → List Write → Prop
  | head {headers : Headers} {write : Write} {writes : List Write} :
      Occurs headers (write :: writes) headers write writes
  | tail {headers before : Headers} {first write : Write} {writes after : List Write} :
      Occurs (first.apply headers) writes before write after →
      Occurs headers (first :: writes) before write after

/-- The write sets the name, under whichever spelling. -/
def Sets (name : String) (headers : Headers) (write : Write) (value : String) : Prop :=
  ∃ key : String, lowercase key = name ∧ Effect key headers write (some value)

/-- The write deletes the name, under whichever spelling. -/
def Deletes (name : String) (headers : Headers) (write : Write) : Prop :=
  (∃ key : String, lowercase key = name ∧ Effect key headers write none) ∧
    ∀ value : String, ¬ Sets name headers write value

/-- The last of the writes with an effect on the name sets it to the value. -/
def LastSets (name : String) (headers : Headers) (writes : List Write) (value : String) : Prop :=
  ∃ (before : Headers) (write : Write) (after : List Write),
    Occurs headers writes before write after ∧ Sets name before write value ∧
    ∀ key : String, lowercase key = name → Untouched key (write.apply before) after

/-- The last of the writes with an effect on the name deletes it. -/
def LastDeletes (name : String) (headers : Headers) (writes : List Write) : Prop :=
  ∃ (before : Headers) (write : Write) (after : List Write),
    Occurs headers writes before write after ∧ Deletes name before write ∧
    ∀ key : String, lowercase key = name → Untouched key (write.apply before) after

end Write

/-- The writes of the channel in their order. -/
def Overrides.writes (overrides : Overrides) : List Write :=
  overrides.headerOps.map .operation ++ overrides.staticHeaders.map .static

/-- The writes of the channel and the default user agent. -/
def Overrides.allWrites (overrides : Overrides) (passThrough : Bool) : List Write :=
  overrides.writes ++ [.userAgent passThrough]

/-! ## Spellings that are withdrawn -/

/-- A later write takes the key out, or leaves it with what is no header. -/
def TakenOut (codec : HeaderCodec) (key : String) (headers : Headers) (writes : List Write) :
    Prop :=
  ∃ (before : Headers) (write : Write) (after : List Write) (result : Option String),
    Write.Occurs headers writes before write after ∧ write.Effect key before result ∧
    ∀ value : String, result = some value → codec.takes key value = false

/-- Whatever brings the key with a legal value, the request or a write, a later write under
the same spelling takes it out. -/
structure Withdrawn (codec : HeaderCodec) (key : String) (headers : Headers)
    (writes : List Write) : Prop where
  request : ∀ value : String, headers key = some value → codec.takes key value = true →
    TakenOut codec key headers writes
  write : ∀ {before : Headers} {write : Write} {after : List Write} {value : String},
    Write.Occurs headers writes before write after → write.Effect key before (some value) →
    codec.takes key value = true → TakenOut codec key (write.apply before) after

/-- The structured authorization, which replaces every value of its name. -/
def replacing (request : HttpRequest) (name : String) : Option String :=
  if name = "authorization" then authValue request.auth else none

/-- A JSON body brings its content type where there is none. -/
def BringsContentType (request : HttpRequest) (name : String) : Prop :=
  name = "content-type" ∧ request.body = none ∧ request.jsonBody ≠ none

/-- Nothing has a value of its own for the name beside the one of its last override: no other
spelling, and none of the three writers that come after the overrides. -/
structure Unrivalled (codec : HeaderCodec) (request : HttpRequest) (overrides : Overrides)
    (passThrough : Bool) (name : String) : Prop where
  spelling : replacing request name = none → ∀ key other : String, lowercase key = name →
    lowercase other = name → key ≠ other →
    Withdrawn codec key request.headers (overrides.allWrites passThrough) ∨
      Withdrawn codec other request.headers (overrides.allWrites passThrough)
  set : ∀ value : String, Write.LastSets name request.headers overrides.writes value →
    replacing request name = some value ∨
      replacing request name = none ∧ codec.takes name value = true ∧
        (name = lowercase userAgentHeader → passThrough = true ∨ value = "conduit/1.0")
  deleted : Write.LastDeletes name request.headers overrides.writes →
    replacing request name = none ∧ ¬ BringsContentType request name ∧
      ∀ key : String, lowercase key = name →
        Withdrawn codec key request.headers (overrides.allWrites passThrough)

/-- At most one value of the name is sent: the one its last override sets, and none where that
deletes it. -/
structure OneValue (request : HttpRequest) (overrides : Overrides) (wire : WireHeaders)
    (name : String) : Prop where
  atMostOne : (getAll wire name).length ≤ 1
  set : ∀ value : String, Write.LastSets name request.headers overrides.writes value →
    getAll wire name = [value]
  deleted : Write.LastDeletes name request.headers overrides.writes → getAll wire name = []

/-! ## What a write does to a key -/

section Steps

variable {key : String} {headers : Headers}

/-- A body operation is none of the header operations. -/
theorem applyOperation_bodyOp {op : OverrideOperation} (hbody : startsWith op.op "header_" = true)
    (headers : Headers) : applyOverrideOperationToHeaders headers op = headers := by
  have hnot : ∀ name : String, startsWith name "header_" = false → op.op ≠ name := by
    rintro name hname rfl
    rw [hbody] at hname
    exact absurd hname (by decide)
  unfold applyOverrideOperationToHeaders
  rw [if_neg (hnot "set" (by decide)), if_neg (hnot "delete" (by decide)),
    if_neg (hnot "rename" (by decide)), if_neg (hnot "copy" (by decide))]

/-- The middleware makes the writes of the channel. -/
theorem overrideHeaders_eq (overrides : Overrides) (headers : Headers) :
    overrideHeaders overrides headers = overrides.writes.foldl Write.apply headers := by
  have hbody : ∀ ops : List OverrideOperation,
      (ops.filter fun op => startsWith op.op "header_").foldl applyOverrideOperationToHeaders
        headers = headers := by
    intro ops
    induction ops with
    | nil => rfl
    | cons op ops ih =>
        by_cases hop : startsWith op.op "header_" = true
        · rw [List.filter_cons, if_pos hop, List.foldl_cons, applyOperation_bodyOp hop]
          exact ih
        · rw [List.filter_cons, if_neg hop]
          exact ih
  unfold overrideHeaders Overrides.writes
  dsimp only
  rw [hbody, List.foldl_append, List.foldl_map, List.foldl_map]
  rfl

theorem defaultUserAgent_self {passThrough : Bool}
    (hnone : passThrough = true → headers userAgentHeader = none) :
    defaultUserAgent passThrough headers userAgentHeader = some "conduit/1.0" := by
  unfold defaultUserAgent
  split
  · rename_i hpass
    rw [if_neg (by rw [hnone hpass]; exact Bool.false_ne_true)]
    exact Function.update_self _ _ _
  · exact Function.update_self _ _ _

theorem defaultUserAgent_other (hkey : key ≠ userAgentHeader) (passThrough : Bool)
    (headers : Headers) : defaultUserAgent passThrough headers key = headers key := by
  have hinsert : headers.insert userAgentHeader "conduit/1.0" key = headers key :=
    Function.update_of_ne hkey _ _
  unfold defaultUserAgent
  split
  · split
    · rfl
    · exact hinsert
  · exact hinsert

/-- A write with an effect on the key leaves the key with it. -/
theorem apply_effect {write : Write} {result : Option String}
    (heffect : write.Effect key headers result) : write.apply headers key = result := by
  cases heffect with
  | set hop hpath hvalue =>
      unfold Write.apply applyOverrideOperationToHeaders
      dsimp only
      rw [if_pos hop, if_neg hvalue, hpath]
      exact Function.update_self _ _ _
  | clear hop hpath hvalue =>
      unfold Write.apply applyOverrideOperationToHeaders
      dsimp only
      rw [if_pos hop, if_pos hvalue, hpath]
      exact Function.update_self _ _ _
  | delete hop hpath =>
      unfold Write.apply applyOverrideOperationToHeaders
      dsimp only
      rw [if_neg (hop ▸ by decide), if_pos hop, hpath]
      exact Function.update_self _ _ _
  | renamedTo hop hto hvalue =>
      unfold Write.apply applyOverrideOperationToHeaders
      dsimp only
      rw [if_neg (hop ▸ by decide), if_neg (hop ▸ by decide), if_pos hop, hvalue, hto]
      exact Function.update_self _ _ _
  | @renamedFrom op hop hfrom hto hsome =>
      unfold Write.apply applyOverrideOperationToHeaders
      dsimp only
      obtain ⟨value, hvalue⟩ := Option.ne_none_iff_exists'.mp hsome
      rw [if_neg (hop ▸ by decide), if_neg (hop ▸ by decide), if_pos hop, hfrom, hvalue]
      exact (Function.update_of_ne (Ne.symm hto) _ _).trans (Function.update_self _ _ _)
  | copied hop hto hvalue =>
      unfold Write.apply applyOverrideOperationToHeaders
      dsimp only
      rw [if_neg (hop ▸ by decide), if_neg (hop ▸ by decide), if_neg (hop ▸ by decide), if_pos hop,
        hvalue, hto]
      exact Function.update_self _ _ _
  | @static entry hkey hname =>
      unfold Write.apply applyStaticHeader
      dsimp only
      rw [if_neg (hkey ▸ hname), hkey]
      exact Function.update_self _ _ _
  | @userAgent passThrough hkey hnone =>
      rw [← hkey]
      exact defaultUserAgent_self hnone

/-- A write without one leaves the key alone. -/
theorem apply_untouched {write : Write}
    (hno : ∀ result : Option String, ¬ write.Effect key headers result) :
    write.apply headers key = headers key := by
  unfold Write.apply
  cases write with
  | static entry =>
      unfold applyStaticHeader
      dsimp only
      split
      · rfl
      · rename_i hempty
        exact Function.update_of_ne (fun hkey => hno _ (.static hkey.symm (hkey ▸ hempty))) _ _
  | userAgent passThrough =>
      dsimp only
      by_cases hkey : userAgentHeader = key
      · have hkept : ¬ (passThrough = true → headers userAgentHeader = none) :=
          fun hnone => hno _ (.userAgent hkey hnone)
        rw [Classical.not_imp] at hkept
        unfold defaultUserAgent
        rw [if_pos hkept.1, if_pos (Option.isSome_iff_ne_none.mpr hkept.2)]
      · exact defaultUserAgent_other (Ne.symm hkey) passThrough headers
  | operation op =>
      unfold applyOverrideOperationToHeaders
      dsimp only
      by_cases hset : op.op = "set"
      · rw [if_pos hset]
        by_cases hclear : op.value = overrideClear
        · rw [if_pos hclear]
          exact Function.update_of_ne (fun hkey => hno _ (.clear hset hkey.symm hclear)) _ _
        · rw [if_neg hclear]
          exact Function.update_of_ne (fun hkey => hno _ (.set hset hkey.symm hclear)) _ _
      by_cases hdelete : op.op = "delete"
      · rw [if_neg hset, if_pos hdelete]
        exact Function.update_of_ne (fun hkey => hno _ (.delete hdelete hkey.symm)) _ _
      rw [if_neg hset, if_neg hdelete]
      by_cases hrename : op.op = "rename"
      · rw [if_pos hrename]
        cases hvalue : headers op.fromKey with
        | none => rfl
        | some value =>
            have hto : key ≠ op.toKey := fun hkey => hno _ (.renamedTo hrename hkey.symm hvalue)
            have hfrom : key ≠ op.fromKey := by
              rintro rfl
              exact hno _ (.renamedFrom hrename rfl (Ne.symm hto) (hvalue ▸ Option.some_ne_none value))
            exact (Function.update_of_ne hto _ _).trans (Function.update_of_ne hfrom _ _)
      rw [if_neg hrename]
      by_cases hcopy : op.op = "copy"
      · rw [if_pos hcopy]
        cases hvalue : headers op.fromKey with
        | none => rfl
        | some value =>
            exact Function.update_of_ne (fun hkey => hno _ (.copied hcopy hkey.symm hvalue)) _ _
      · rw [if_neg hcopy]

/-- The run of writes that leave the key alone. -/
theorem foldl_untouched {writes : List Write} (hno : Write.Untouched key headers writes) :
    writes.foldl Write.apply headers key = headers key := by
  induction writes generalizing headers with
  | nil => rfl
  | cons write writes ih =>
      rw [List.foldl_cons, ih hno.2]
      exact apply_untouched hno.1

theorem Write.Occurs.foldl_eq {writes after : List Write} {before : Headers} {write : Write}
    (h : Write.Occurs headers writes before write after) :
    writes.foldl Write.apply headers = after.foldl Write.apply (write.apply before) := by
  induction h with
  | head => rfl
  | tail _ ih => exact ih

/-- The last override on a name leaves it with what it sets. -/
theorem Write.LastSets.left {name value : String} {writes : List Write}
    (h : Write.LastSets name headers writes value) :
    ∃ key : String, lowercase key = name ∧ writes.foldl Write.apply headers key = some value := by
  obtain ⟨before, write, after, hoccurs, ⟨key, hkey, heffect⟩, hafter⟩ := h
  refine ⟨key, hkey, ?_⟩
  rw [hoccurs.foldl_eq, foldl_untouched (hafter key hkey)]
  exact apply_effect heffect

end Steps

/-! ## Withdrawn spellings are not sent -/

/-- The map has the key with a header that the library takes. -/
def Left (codec : HeaderCodec) (headers : Headers) (key : String) : Prop :=
  ∃ value : String, headers key = some value ∧ codec.takes key value = true

section Withdrawal

variable {codec : HeaderCodec} {key : String} {headers : Headers}

theorem TakenOut.cons {write : Write} {writes : List Write}
    (h : TakenOut codec key (write.apply headers) writes) :
    TakenOut codec key headers (write :: writes) := by
  obtain ⟨before, later, after, result, hoccurs, heffect, hresult⟩ := h
  exact ⟨before, later, after, result, hoccurs.tail, heffect, hresult⟩

/-- A header that is taken out is taken out by the first write or after it. -/
theorem TakenOut.cases {write : Write} {writes : List Write}
    (h : TakenOut codec key headers (write :: writes)) :
    (∃ result : Option String, write.Effect key headers result ∧
      ∀ value : String, result = some value → codec.takes key value = false) ∨
      TakenOut codec key (write.apply headers) writes := by
  obtain ⟨before, later, after, result, hoccurs, heffect, hresult⟩ := h
  cases hoccurs with
  | head => exact .inl ⟨result, heffect, hresult⟩
  | tail hlater => exact .inr ⟨before, later, after, result, hlater, heffect, hresult⟩

/-- One write: a spelling is withdrawn over the rest of the run when it is over the run. -/
theorem withdrawn_cons {write : Write} {writes : List Write} :
    Withdrawn codec key headers (write :: writes) ↔
      Withdrawn codec key (write.apply headers) writes := by
  constructor
  · intro h
    refine ⟨fun value hvalue htakes => ?_, fun hoccurs => h.write hoccurs.tail⟩
    by_cases heffect : ∃ result : Option String, write.Effect key headers result
    · obtain ⟨result, heffect⟩ := heffect
      obtain rfl : result = some value := (apply_effect heffect).symm.trans hvalue
      exact h.write .head heffect htakes
    · have hno := not_exists.mp heffect
      rw [apply_untouched hno] at hvalue
      rcases (h.request value hvalue htakes).cases with ⟨result, heffect, -⟩ | hlater
      · exact absurd heffect (hno result)
      · exact hlater
  · intro h
    refine ⟨fun value hvalue htakes => ?_, fun hoccurs heffect htakes => ?_⟩
    · by_cases heffect : ∃ result : Option String, write.Effect key headers result
      · obtain ⟨result, heffect⟩ := heffect
        by_cases hlegal : ∃ later : String, result = some later ∧ codec.takes key later = true
        · obtain ⟨later, rfl, hlater⟩ := hlegal
          exact (h.request later (apply_effect heffect) hlater).cons
        · refine ⟨headers, write, writes, result, .head, heffect, fun later hresult => ?_⟩
          exact Bool.eq_false_iff.mpr fun hlater => hlegal ⟨later, hresult, hlater⟩
      · have hkept := apply_untouched (not_exists.mp heffect)
        exact (h.request value (hkept.trans hvalue) htakes).cons
    · cases hoccurs with
      | head => exact h.request _ (apply_effect heffect) htakes
      | tail hlater => exact h.write hlater heffect htakes

/-- A run leaves a spelling exactly when it is not withdrawn. -/
theorem withdrawn_iff (writes : List Write) (headers : Headers) :
    Withdrawn codec key headers writes ↔ ¬ Left codec (writes.foldl Write.apply headers) key := by
  induction writes generalizing headers with
  | nil =>
      constructor
      · rintro h ⟨value, hvalue, htakes⟩
        obtain ⟨before, write, after, result, hoccurs, -⟩ := h.request value hvalue htakes
        exact nomatch hoccurs
      · intro h
        exact ⟨fun value hvalue htakes => absurd ⟨value, hvalue, htakes⟩ h,
          fun hoccurs => nomatch hoccurs⟩
  | cons write writes ih => exact withdrawn_cons.trans (ih _)

end Withdrawal

/-! ## On the wire -/

section Wire

variable {codec : HeaderCodec} {name : String} {headers : Headers}

theorem getAll_append (wire rest : WireHeaders) (name : String) :
    getAll (wire ++ rest) name = getAll wire name ++ getAll rest name := by
  unfold getAll
  rw [List.filter_append, List.map_append]

theorem getAll_cons (entry : String × String) (wire : WireHeaders) (name : String) :
    getAll (entry :: wire) name =
      if entry.1 = name then entry.2 :: getAll wire name else getAll wire name := by
  unfold getAll
  rw [List.filter_cons]
  by_cases hname : entry.1 = name
  · rw [if_pos hname, if_pos (decide_eq_true hname), List.map_cons]
  · rw [if_neg hname, if_neg (by simpa using hname)]

theorem getAll_replaceAll (name value other : String) (wire : WireHeaders) :
    getAll (replaceAll name value wire) other = if other = name then [value] else getAll wire other := by
  unfold replaceAll
  rw [getAll_append, getAll_cons]
  unfold getAll
  rw [List.filter_filter]
  by_cases hsame : other = name
  · rw [if_pos hsame, if_pos hsame.symm, List.filter_eq_nil_iff.mpr]
    · rfl
    · intro entry _
      simp [hsame]
  · rw [if_neg hsame, if_neg (Ne.symm hsame)]
    refine (List.append_nil _).trans (congrArg (List.map Prod.snd) (List.filter_congr ?_))
    intro entry _
    by_cases hentry : entry.1 = other
    · simp [hentry, hsame]
    · simp [hentry]

/-- The entries that are sent under the name. -/
def sentEntries (codec : HeaderCodec) (name : String) (entries : List (String × String)) :
    List (String × String) :=
  entries.filter fun entry => lowercase entry.1 = name && codec.takes entry.1 entry.2

theorem getAll_headerMapFromLlm (entries : List (String × String)) :
    getAll (headerMapFromLlm codec entries) name =
      (sentEntries codec name entries).map Prod.snd := by
  induction entries with
  | nil => rfl
  | cons entry entries ih =>
      unfold headerMapFromLlm sentEntries at ih ⊢
      by_cases htakes : codec.takes entry.1 entry.2 = true
      · have hentry : wireEntry codec entry = some (lowercase entry.1, entry.2) := if_pos htakes
        rw [List.filterMap_cons, hentry, List.filter_cons, htakes, Bool.and_true]
        dsimp only
        rw [getAll_cons, ih]
        by_cases hname : lowercase entry.1 = name
        · rw [if_pos hname, if_pos (decide_eq_true hname), List.map_cons]
        · rw [if_neg hname, if_neg (by simpa using hname)]
      · have hentry : wireEntry codec entry = none := if_neg htakes
        rw [List.filterMap_cons, hentry, List.filter_cons, Bool.eq_false_iff.mpr htakes,
          Bool.and_false, if_neg Bool.false_ne_true]
        exact ih

theorem mem_sentEntries (listed : Listed headers) {entry : String × String} :
    entry ∈ sentEntries codec name listed.entries ↔
      headers entry.1 = some entry.2 ∧ lowercase entry.1 = name ∧
        codec.takes entry.1 entry.2 = true := by
  unfold sentEntries
  rw [List.mem_filter, listed.mem_iff entry.1 entry.2, Bool.and_eq_true, decide_eq_true_iff]

theorem mem_getAll (listed : Listed headers) {value : String} :
    value ∈ getAll (headerMapFromLlm codec listed.entries) name ↔
      ∃ key : String, headers key = some value ∧ lowercase key = name ∧
        codec.takes key value = true := by
  rw [getAll_headerMapFromLlm, List.mem_map]
  constructor
  · rintro ⟨entry, hentry, rfl⟩
    exact ⟨entry.1, (mem_sentEntries listed).mp hentry⟩
  · rintro ⟨key, hkey⟩
    exact ⟨(key, value), (mem_sentEntries listed).mpr hkey, rfl⟩

theorem getAll_eq_nil (listed : Listed headers) :
    getAll (headerMapFromLlm codec listed.entries) name = [] ↔
      ∀ key : String, lowercase key = name → ¬ Left codec headers key := by
  rw [List.eq_nil_iff_forall_not_mem]
  constructor
  · rintro h key hname ⟨value, hvalue, htakes⟩
    exact h value ((mem_getAll listed).mpr ⟨key, hvalue, hname, htakes⟩)
  · intro h value hmem
    obtain ⟨key, hvalue, hname, htakes⟩ := (mem_getAll listed).mp hmem
    exact h key hname ⟨value, hvalue, htakes⟩

/-- A name has two values where two of its spellings are left. -/
theorem length_getAll_le_one (listed : Listed headers) :
    (getAll (headerMapFromLlm codec listed.entries) name).length ≤ 1 ↔
      ∀ key other : String, lowercase key = name → lowercase other = name → key ≠ other →
        ¬ Left codec headers key ∨ ¬ Left codec headers other := by
  have hnodup : (sentEntries codec name listed.entries).Nodup :=
    (List.Nodup.of_map Prod.fst listed.nodup).filter _
  rw [getAll_headerMapFromLlm, List.length_map, ← List.toFinset_card_of_nodup hnodup,
    Finset.card_le_one]
  simp only [List.mem_toFinset, mem_sentEntries listed]
  constructor
  · intro h key other hkey hother hne
    by_contra hleft
    rw [not_or, not_not, not_not] at hleft
    obtain ⟨⟨value, hvalue, htakes⟩, ⟨value', hvalue', htakes'⟩⟩ := hleft
    exact hne (congrArg Prod.fst
      (h (key, value) ⟨hvalue, hkey, htakes⟩ (other, value') ⟨hvalue', hother, htakes'⟩))
  · rintro h ⟨key, value⟩ ⟨hvalue, hkey, htakes⟩ ⟨other, value'⟩ ⟨hvalue', hother, htakes'⟩
    by_cases hsame : key = other
    · subst hsame
      exact congrArg (Prod.mk key) (Option.some.inj (hvalue.symm.trans hvalue'))
    · rcases h key other hkey hother hsame with hgone | hgone
      · exact absurd ⟨value, hvalue, htakes⟩ hgone
      · exact absurd ⟨value', hvalue', htakes'⟩ hgone

/-- The structured authorization takes the place of every other one, and a JSON body
brings its content type when there is none. -/
theorem sentHeaders_cases {request : HttpRequest} {entries : List (String × String)}
    {wire : WireHeaders} (hsent : sentHeaders codec request entries = some wire) :
    ∃ authorized : WireHeaders,
      (authValue request.auth = none ∧ authorized = headerMapFromLlm codec entries ∨
        ∃ value : String, authValue request.auth = some value ∧
          authorized = replaceAll "authorization" value (headerMapFromLlm codec entries)) ∧
      wire = if request.body = none ∧ request.jsonBody ≠ none ∧
          getAll authorized "content-type" = [] then
        ("content-type", "application/json") :: authorized else authorized := by
  unfold sentHeaders at hsent
  obtain ⟨authorized, hauthorized, hwire⟩ := Option.map_eq_some_iff.mp hsent
  refine ⟨authorized, ?_, ?_⟩
  · cases hauth : authValue request.auth with
    | none =>
        rw [hauth] at hauthorized
        exact .inl ⟨rfl, (Option.some.inj hauthorized).symm⟩
    | some value =>
        rw [hauth] at hauthorized
        dsimp only at hauthorized
        split at hauthorized
        · exact .inr ⟨value, rfl, (Option.some.inj hauthorized).symm⟩
        · exact absurd hauthorized (Option.some_ne_none authorized).symm
  · rw [← hwire]
    refine if_congr ?_ rfl rfl
    rw [Bool.and_eq_true, Bool.and_eq_true, Option.isNone_iff_eq_none, Option.isSome_iff_ne_none,
      List.isEmpty_iff, and_assoc]

/-- A name whose values the authorization replaces has its value. -/
theorem getAll_of_replacing {request : HttpRequest} {entries : List (String × String)}
    {wire : WireHeaders} {token : String}
    (hsent : sentHeaders codec request entries = some wire)
    (hreplacing : replacing request name = some token) : getAll wire name = [token] := by
  unfold replacing at hreplacing
  obtain ⟨hname, hauth⟩ : name = "authorization" ∧ authValue request.auth = some token := by
    split at hreplacing
    · exact ⟨‹_›, hreplacing⟩
    · exact absurd hreplacing (Option.some_ne_none token).symm
  obtain ⟨authorized, hauthorized, rfl⟩ := sentHeaders_cases hsent
  have htoken : getAll authorized name = [token] := by
    rcases hauthorized with ⟨hnone, -⟩ | ⟨value, hvalue, rfl⟩
    · exact absurd (hnone.symm.trans hauth) (Option.some_ne_none token).symm
    · rw [getAll_replaceAll, if_pos hname, Option.some.inj (hvalue.symm.trans hauth)]
  split
  · rw [getAll_cons, if_neg (by rw [hname]; decide)]
    exact htoken
  · exact htoken

/-- Any other name has what the map has, or the content type of the body. -/
theorem getAll_of_not_replacing {request : HttpRequest} {entries : List (String × String)}
    {wire : WireHeaders} (hsent : sentHeaders codec request entries = some wire)
    (hreplacing : replacing request name = none) :
    BringsContentType request name ∧ getAll (headerMapFromLlm codec entries) name = [] ∧
        getAll wire name = ["application/json"] ∨
      ¬ (BringsContentType request name ∧ getAll (headerMapFromLlm codec entries) name = []) ∧
        getAll wire name = getAll (headerMapFromLlm codec entries) name := by
  obtain ⟨authorized, hauthorized, rfl⟩ := sentHeaders_cases hsent
  have hkept : getAll authorized name = getAll (headerMapFromLlm codec entries) name := by
    rcases hauthorized with ⟨-, rfl⟩ | ⟨value, hvalue, rfl⟩
    · rfl
    · rw [getAll_replaceAll, if_neg]
      rintro rfl
      unfold replacing at hreplacing
      rw [if_pos rfl, hvalue] at hreplacing
      exact Option.some_ne_none value hreplacing
  by_cases hname : name = "content-type"
  · subst hname
    split
    next hjson =>
      refine .inl ⟨⟨rfl, hjson.1, hjson.2.1⟩, hkept.symm.trans hjson.2.2, ?_⟩
      rw [getAll_cons, if_pos rfl, hjson.2.2]
    next hjson =>
      refine .inr ⟨fun h => hjson ⟨h.1.2.1, h.1.2.2, hkept.trans h.2⟩, hkept⟩
  · refine .inr ⟨fun h => hname h.1.1, ?_⟩
    split
    · rw [getAll_cons, if_neg (Ne.symm hname)]
      exact hkept
    · exact hkept

end Wire

/-! ## One value for each name -/

section Sent

variable {codec : HeaderCodec} {outbound inbound : HttpRequest} {target : PipelineCandidate}
  {overrides : Overrides} {passThrough : Bool} {name : String}

theorem prepared_headers :
    (preparedRequest outbound inbound target overrides passThrough).headers =
      (overrides.allWrites passThrough).foldl Write.apply
        (stampedRequest outbound inbound target).headers := by
  unfold preparedRequest Overrides.allWrites
  dsimp only
  rw [overrideHeaders_eq, List.foldl_append]
  rfl

theorem withdrawn_iff_not_left {key : String} :
    Withdrawn codec key (stampedRequest outbound inbound target).headers
        (overrides.allWrites passThrough) ↔
      ¬ Left codec (preparedRequest outbound inbound target overrides passThrough).headers key := by
  rw [prepared_headers]
  exact withdrawn_iff _ _

/-- What the last override sets is still there unless the default user agent replaces it. -/
theorem prepared_lastSets {value : String}
    (hset : Write.LastSets name (stampedRequest outbound inbound target).headers
      overrides.writes value)
    (hagent : name = lowercase userAgentHeader → passThrough = true ∨ value = "conduit/1.0") :
    ∃ key : String, lowercase key = name ∧
      (preparedRequest outbound inbound target overrides passThrough).headers key = some value := by
  obtain ⟨key, hkey, hleft⟩ := hset.left
  refine ⟨key, hkey, ?_⟩
  rw [← overrideHeaders_eq] at hleft
  unfold preparedRequest
  dsimp only
  by_cases hname : key = userAgentHeader
  · subst hname
    by_cases hpass : passThrough = true
    · unfold defaultUserAgent
      rw [if_pos hpass, if_pos (by rw [hleft]; rfl)]
      exact hleft
    · obtain rfl := (hagent hkey.symm).resolve_left hpass
      exact defaultUserAgent_self fun h => absurd h hpass
  · rw [defaultUserAgent_other hname]
    exact hleft

theorem takes_name {key value : String} (hkey : lowercase key = name) :
    codec.takes key value = codec.takes name value := by
  unfold HeaderCodec.takes
  rw [← hkey, codec.validName_lowercase]

theorem takes_agent (hname : codec.validName name = true) :
    codec.takes name "conduit/1.0" = true := by
  unfold HeaderCodec.takes
  rw [hname, codec.validValue_printable _ rfl]
  rfl

theorem takes_contentType : codec.takes "content-type" "application/json" = true := by
  unfold HeaderCodec.takes
  rw [codec.validName_contentType, codec.validValue_printable _ rfl]
  rfl

variable {wire : WireHeaders}
  (listed : Listed (preparedRequest outbound inbound target overrides passThrough).headers)
  (hsent : sentHeaders codec (preparedRequest outbound inbound target overrides passThrough)
    listed.entries = some wire)

include hsent

/-- Where no authorization replaces them, the values are one when one spelling is left. -/
theorem length_sent_le_one
    (hreplacing : replacing (stampedRequest outbound inbound target) name = none) :
    (getAll wire name).length ≤ 1 ↔
      ∀ key other : String, lowercase key = name → lowercase other = name → key ≠ other →
        Withdrawn codec key (stampedRequest outbound inbound target).headers
            (overrides.allWrites passThrough) ∨
          Withdrawn codec other (stampedRequest outbound inbound target).headers
            (overrides.allWrites passThrough) := by
  simp only [withdrawn_iff_not_left]
  rw [← length_getAll_le_one listed]
  rcases getAll_of_not_replacing hsent hreplacing with ⟨-, hempty, hwire⟩ | ⟨-, hwire⟩
  · rw [hwire, hempty]
    exact ⟨fun _ => Nat.zero_le 1, fun _ => le_refl 1⟩
  · rw [hwire]

/-- What the last override sets is the one value when it is legal and no default user agent
replaces it. -/
theorem sent_lastSets_iff {value : String}
    (hreplacing : replacing (stampedRequest outbound inbound target) name = none)
    (hone : (getAll wire name).length ≤ 1)
    (hset : Write.LastSets name (stampedRequest outbound inbound target).headers
      overrides.writes value) :
    getAll wire name = [value] ↔
      codec.takes name value = true ∧
        (name = lowercase userAgentHeader → passThrough = true ∨ value = "conduit/1.0") := by
  constructor
  · intro hvalue
    rcases getAll_of_not_replacing hsent hreplacing with ⟨hbrings, -, hwire⟩ | ⟨-, hwire⟩
    · obtain rfl := List.head_eq_of_cons_eq (hvalue.symm.trans hwire)
      obtain rfl := hbrings.1
      exact ⟨takes_contentType, fun hname => absurd hname (by decide)⟩
    · rw [hwire] at hvalue
      obtain ⟨key, -, hkey, htakes⟩ :=
        (mem_getAll listed).mp (hvalue ▸ List.mem_singleton_self value)
      rw [takes_name hkey] at htakes
      refine ⟨htakes, fun hname => or_iff_not_imp_left.mpr fun hpass => ?_⟩
      -- the default user agent is sent, so it is the one value
      have hagent : "conduit/1.0" ∈ getAll (headerMapFromLlm codec listed.entries) name := by
        refine (mem_getAll listed).mpr ⟨userAgentHeader, ?_, hname.symm, ?_⟩
        · exact defaultUserAgent_self fun h => absurd h hpass
        · rw [takes_name hname.symm]
          exact takes_agent (Bool.and_eq_true_iff.mp htakes).1
      rw [hvalue] at hagent
      exact (List.mem_singleton.mp hagent).symm
  · rintro ⟨htakes, hagent⟩
    obtain ⟨key, hkey, hleft⟩ := prepared_lastSets hset hagent
    have hmem : value ∈ getAll (headerMapFromLlm codec listed.entries) name :=
      (mem_getAll listed).mpr ⟨key, hleft, hkey, (takes_name hkey).trans htakes⟩
    rcases getAll_of_not_replacing hsent hreplacing with ⟨-, hempty, -⟩ | ⟨-, hwire⟩
    · rw [hempty] at hmem
      exact absurd hmem List.not_mem_nil
    · rw [← hwire] at hmem
      obtain ⟨sole, hsole⟩ :=
        List.length_eq_one_iff.mp (le_antisymm hone (List.length_pos_of_mem hmem))
      rw [hsole] at hmem ⊢
      rw [List.mem_singleton.mp hmem]

/-- Nothing is sent when no spelling is left and the body brings nothing. -/
theorem sent_eq_nil_iff
    (hreplacing : replacing (stampedRequest outbound inbound target) name = none) :
    getAll wire name = [] ↔
      ¬ BringsContentType (stampedRequest outbound inbound target) name ∧
        ∀ key : String, lowercase key = name →
          Withdrawn codec key (stampedRequest outbound inbound target).headers
            (overrides.allWrites passThrough) := by
  simp only [withdrawn_iff_not_left]
  rw [← getAll_eq_nil listed]
  rcases getAll_of_not_replacing hsent hreplacing with ⟨hbrings, -, hwire⟩ | ⟨hnot, hwire⟩
  · rw [hwire]
    exact ⟨fun h => absurd h (List.cons_ne_nil _ _), fun h => absurd hbrings h.1⟩
  · rw [hwire]
    exact ⟨fun hempty => ⟨fun hbrings => hnot ⟨hbrings, hempty⟩, hempty⟩, fun h => h.2⟩

end Sent

/-! ## Runs -/

/-- A codec that takes every name and value. -/
def plainCodec : HeaderCodec where
  validName _ := true
  validName_lowercase _ := rfl
  validName_contentType := rfl
  validValue _ := true
  validValue_printable _ _ := rfl

def headersOf : List (String × String) → Headers
  | [] => fun _ => none
  | (key, value) :: entries => (headersOf entries).insert key value

theorem mem_headersOf {entries : List (String × String)} (hnodup : (entries.map Prod.fst).Nodup)
    (key value : String) : (key, value) ∈ entries ↔ headersOf entries key = some value := by
  induction entries with
  | nil => exact ⟨(nomatch ·), (nomatch ·)⟩
  | cons entry entries ih =>
      obtain ⟨name, own⟩ := entry
      rw [List.map_cons, List.nodup_cons] at hnodup
      rw [List.mem_cons, Prod.mk.injEq, ih hnodup.2]
      change _ ↔ (headersOf entries).insert name own key = some value
      unfold Headers.insert
      by_cases hkey : key = name
      · subst hkey
        rw [Function.update_self, Option.some_inj, ← ih hnodup.2]
        constructor
        · rintro (⟨-, rfl⟩ | hmem)
          · rfl
          · exact absurd (List.mem_map_of_mem hmem) hnodup.1
        · rintro rfl
          exact .inl ⟨rfl, rfl⟩
      · rw [Function.update_of_ne hkey]
        exact ⟨fun h => h.resolve_left fun h => hkey h.1, .inr⟩

def listedOf {headers : Headers} {entries : List (String × String)}
    (hheaders : headers = headersOf entries) (hnodup : (entries.map Prod.fst).Nodup) :
    Listed headers where
  entries := entries
  nodup := hnodup
  mem_iff := by
    rw [hheaders]
    exact mem_headersOf hnodup

/-- A chat request as the transformer leaves it. -/
def chatRequest : HttpRequest :=
  { HttpRequest.empty with
    method := "POST"
    path := "/v1/chat/completions"
    jsonBody := some (.object [("model", .string "gpt-4o")]) }

/-- A client's request with one header. -/
def clientRequest (name value : String) : HttpRequest :=
  { HttpRequest.empty with headers := headersOf [(name, value)] }

theorem stamped_client (name value : String)
    (hmerged : unmergedHeaders.any (eqIgnoreAsciiCase name) = false) :
    (stampedRequest chatRequest (clientRequest name value) (.ofId "primary")).headers =
      headersOf [(name, value)] := by
  funext key
  change (if unmergedHeaders.any (eqIgnoreAsciiCase key) then none
    else none.or (headersOf [(name, value)] key)) = _
  rw [Option.none_or]
  by_cases hkey : key = name
  · rw [hkey, hmerged, if_neg Bool.false_ne_true]
  · have hnone : headersOf [(name, value)] key = none := Function.update_of_ne hkey _ _
    rw [hnone, ite_self]

/-- A client that sends its user agent. -/
def agentRequest : HttpRequest :=
  preparedRequest chatRequest (clientRequest "user-agent" "curl/8.5.0") (.ofId "primary")
    ⟨[], [], []⟩ false

theorem agentRequest_headers :
    agentRequest.headers =
      headersOf [("User-Agent", "conduit/1.0"), ("user-agent", "curl/8.5.0")] := by
  have hclient := stamped_client "user-agent" "curl/8.5.0" (by decide)
  unfold agentRequest
  rw [prepared_headers, hclient]
  rfl

/-- A channel that takes the client's spelling of a header out before it sets its own. -/
def respelling : Overrides :=
  ⟨[], [⟨"delete", "x-trace", "", "", ""⟩, ⟨"set", "X-Trace", "", "", "mine"⟩], []⟩

def tracedRequest : HttpRequest :=
  preparedRequest chatRequest (clientRequest "x-trace" "client") (.ofId "primary") respelling false

theorem tracedRequest_headers :
    tracedRequest.headers = headersOf [("User-Agent", "conduit/1.0"), ("X-Trace", "mine")] := by
  have hclient := stamped_client "x-trace" "client" (by decide)
  have hdeleted : removeHeader "x-trace" (headersOf [("x-trace", "client")]) = headersOf [] := by
    unfold removeHeader headersOf Headers.insert headersOf
    rw [Function.update_idem, Function.update_eq_self]
  unfold tracedRequest
  rw [prepared_headers, hclient]
  change Headers.insert _ _ (Headers.insert _ _ (removeHeader "x-trace" _)) = _
  rw [hdeleted]
  rfl

/-- The client's spelling is withdrawn, and so is every other but the channel's. -/
theorem withdrawn_traced {key : String} (hname : lowercase key = "x-trace")
    (hkey : key ≠ "X-Trace") :
    Withdrawn plainCodec key
      (stampedRequest chatRequest (clientRequest "x-trace" "client") (.ofId "primary")).headers
      (respelling.allWrites false) := by
  rw [withdrawn_iff_not_left]
  rintro ⟨value, hvalue, -⟩
  have hagent : key ≠ "User-Agent" := by
    rintro rfl
    exact absurd hname (by decide)
  have hnone : tracedRequest.headers key = none := by
    rw [tracedRequest_headers]
    exact (Function.update_of_ne hagent _ _).trans (Function.update_of_ne hkey _ _)
  exact absurd (hvalue.symm.trans hnone) (Option.some_ne_none value)

/-- The channel's last write of the name is no deletion. -/
theorem not_lastDeletes_traced (headers : Headers) :
    ¬ Write.LastDeletes "x-trace" headers respelling.writes := by
  have hsets (headers : Headers) : Write.Effect "X-Trace" headers
      (.operation ⟨"set", "X-Trace", "", "", "mine"⟩) (some "mine") :=
    .set rfl rfl (by decide)
  rintro ⟨before, write, after, hoccurs, hdeletes, hafter⟩
  cases hoccurs with
  | head => exact (hafter "X-Trace" (by decide)).1 _ (hsets _)
  | tail hlater =>
      cases hlater with
      | head => exact hdeletes.2 "mine" ⟨"X-Trace", by decide, hsets _⟩
      | tail hlast => exact nomatch hlast

theorem unrivalled_traced :
    Unrivalled plainCodec
      (stampedRequest chatRequest (clientRequest "x-trace" "client") (.ofId "primary")) respelling
      false "x-trace" := by
  refine ⟨fun _ key other hkey hother hne => ?_, fun value _ => .inr ⟨rfl, rfl, ?_⟩,
    fun hdeleted => absurd hdeleted (not_lastDeletes_traced _)⟩
  · by_cases hown : key = "X-Trace"
    · exact .inr (withdrawn_traced hother fun h => hne (hown.trans h.symm))
    · exact .inl (withdrawn_traced hkey hown)
  · exact fun hname => absurd hname (by decide)

end Conduit.Orchestrator.HeaderOverrides
