import Conduit.Orchestrator.BodyMove
import Conduit.Orchestrator.HeaderOverrides

/-!
# The body that is sent

`OverrideRequestMiddleware` edits the JSON body of a request,
`PassThroughRequestBodyMiddleware` puts the client's own body in as bytes, and
the executor sends the bytes of a request before its JSON. A live stream is
stamped in the JSON body after both.

The overrides are in effect exactly if no bytes stand before the JSON body that
they edit, or they would leave these as they are.
-/

namespace Conduit.Orchestrator.SentBody

open Base BodyOverride

/-! ## Operations -/

structure OverrideMatch where
  path : String
  eq : String
deriving DecidableEq, Repr

/-- What the operations on a body read. -/
structure Operation extends OverrideOperation where
  op : String
  value : String := ""
  matching : Option OverrideMatch := none
  index : Option Int := none
  splat : Option Bool := none
deriving DecidableEq, Repr

inductive BodyOverrideError
  | arrayOpMissingPath
  | notAnArray (path : String)
  | arrayInsertMissingIndex
  | arrayRemoveMissingMatch
  | arrayRemoveMissingMatchPath
  | arrayRemoveMissingMatchEq
  | unknownOp (op : String)
deriving DecidableEq, Repr

inductive ArrayInsertMode
  | start
  | endOf
  | atIndex
deriving DecidableEq, Repr

/-- The third-party reader and writer of JSON. -/
structure Serde where
  fromStr : String → Option Json
  fromSlice : List UInt8 → Option Json
  toVec : Json → List UInt8

section Operations

variable (serde : Serde)

def looksLikeJson (trimmed : List Char) : Bool :=
  trimmed.head?.any (fun first => first = '{' || first = '[' || first.isDigit || first = '-') ||
    String.ofList trimmed ∈ ["true", "false", "null"]

def parseOverrideValue (value : String) : Json :=
  let trimmed := Text.trimmed value
  if looksLikeJson trimmed then (serde.fromStr (String.ofList trimmed)).getD (.string value)
  else .string value

def applyBodySet (body : Json) (op : Operation) : Json :=
  let parsed := parseOverrideValue serde op.value
  if parsed.asStr = some "__CONDUIT_CLEAR__" then (deleteAtPath body op.path).1
  else setAtPath body op.path parsed

/-- A negative index counts from the end. -/
def insertPosition (mode : ArrayInsertMode) (index : Option Int) (length : Nat) :
    Except BodyOverrideError Nat :=
  match mode, index with
  | .start, _ => .ok 0
  | .endOf, _ => .ok length
  | .atIndex, none => .error .arrayInsertMissingIndex
  | .atIndex, some index =>
      .ok (min length (if index < 0 then index + length else index).toNat)

/-- A list is spread over the array, unless the operation says otherwise. -/
def toInsert (rendered : Json) (splat : Bool) : List Json :=
  match rendered, splat with
  | .array values, true => values
  | value, _ => [value]

def applyBodyArrayInsert (body : Json) (op : Operation) (mode : ArrayInsertMode) :
    Except BodyOverrideError Json :=
  if op.path = "" then .error .arrayOpMissingPath
  else
    let inserted := toInsert (parseOverrideValue serde op.value) (op.splat.getD true)
    match getAtPath body op.path with
    | none => .ok (setAtPath body op.path (.array inserted))
    | some (.array current) =>
        (insertPosition mode op.index current.length).map fun position =>
          setAtPath body op.path
            (.array (current.take position ++ inserted ++ current.drop position))
    | some _ => .error (.notAnArray op.path)

def applyBodyArrayRemove (body : Json) (op : Operation) : Except BodyOverrideError Json :=
  if op.path = "" then .error .arrayOpMissingPath
  else
    match op.matching with
    | none => .error .arrayRemoveMissingMatch
    | some matching =>
        if Text.trimmed matching.path = [] then .error .arrayRemoveMissingMatchPath
        else if Text.trimmed matching.eq = [] then .error .arrayRemoveMissingMatchEq
        else
          match getAtPath body op.path with
          | none => .ok body
          | some (.array values) =>
              .ok (setAtPath body op.path (.array (values.filter fun item =>
                (getAtPath item matching.path).bind Json.asStr ≠
                  some (String.ofList (Text.trimmed matching.eq)))))
          | some _ => .error (.notAnArray op.path)

def applyBodyOperation (body : Json) (op : Operation) : Except BodyOverrideError Json :=
  if op.op = "set" then .ok (applyBodySet serde body op)
  else if op.op = "delete" then .ok (applyBodyDelete body op.toOverrideOperation)
  else if op.op = "rename" then .ok (applyBodyRename body op.toOverrideOperation)
  else if op.op = "copy" then .ok (applyBodyCopy body op.toOverrideOperation)
  else if op.op = "array_append" then applyBodyArrayInsert serde body op .endOf
  else if op.op = "array_prepend" then applyBodyArrayInsert serde body op .start
  else if op.op = "array_insert" then applyBodyArrayInsert serde body op .atIndex
  else if op.op = "array_remove" then applyBodyArrayRemove body op
  else .error (.unknownOp op.op)

/-- An operation that fails is logged and leaves the body as it was. -/
def applyOrKeep (body : Json) (op : Operation) : Json :=
  match applyBodyOperation serde body op with
  | .ok body => body
  | .error _ => body

end Operations

/-! ## The middlewares -/

/-- The overrides of a channel. Empty texts stand for settings that are not there. -/
structure ChannelOverrides where
  parameters : String := ""
  bodyOps : List Operation := []
  headerOps : List HeaderOverrides.OverrideOperation := []
  staticHeaders : List HeaderOverrides.HeaderEntry := []

/-- The bodies of an outbound request. -/
structure Outbound where
  body : Option (List UInt8) := none
  jsonBody : Option Json := none

/-- What the pass-through middleware reads from the metadata. -/
structure PassThrough where
  enabled : Bool
  clientFormat : Option String
  upstreamFormat : Option String
  rawInboundBody : Option String
  actualModel : String

/-- A live stream of binary speech is not stamped, as a buffered request. -/
inductive Path
  | buffered
  | live
deriving DecidableEq, Repr

section Middlewares

variable (serde : Serde)

def mergeParameters (parameters : String) (body : Json) : Json :=
  match (if parameters = "" then none else serde.fromStr parameters), body with
  | some (.object params), .object fields =>
      .object (params.foldl (fun fields entry => Json.insert entry.1 entry.2 fields) fields)
  | _, body => body

def overrideRequest (overrides : ChannelOverrides) (request : Outbound) : Outbound :=
  if overrides.bodyOps.isEmpty && overrides.headerOps.isEmpty && overrides.staticHeaders.isEmpty then
    if overrides.parameters = "" then request
    else { request with jsonBody := request.jsonBody.map (mergeParameters serde overrides.parameters) }
  else
    { request with
      jsonBody := request.jsonBody.map fun body =>
        overrides.bodyOps.foldl (applyOrKeep serde)
          (mergeParameters serde overrides.parameters body) }

/-- The client's body with the model of the channel. -/
def patchedBody (raw actualModel : String) : List UInt8 :=
  if actualModel = "" then Text.asBytes raw
  else
    match serde.fromStr raw with
    | some (.object fields) =>
        serde.toVec (.object (Json.insert "model" (.string actualModel) fields))
    | some value => serde.toVec value
    | none => Text.asBytes raw

/-- The bytes that pass-through puts into a request. -/
def passedThrough (passThrough : PassThrough) : Option (List UInt8) :=
  if passThrough.enabled = false then none
  else if passThrough.clientFormat = none ∨
      passThrough.clientFormat ≠ passThrough.upstreamFormat then none
  else
    (passThrough.rawInboundBody.filter (· ≠ "")).map fun raw =>
      patchedBody serde raw passThrough.actualModel

def passThroughRequestBody (passThrough : PassThrough) (request : Outbound) : Outbound :=
  match passedThrough serde passThrough with
  | some bytes => { request with body := some bytes }
  | none => request

/-- A live stream is asked for in the body. -/
def forceStream (body : Json) : Json :=
  match body with
  | .object fields => .object (Json.insert "stream" (.bool true) fields)
  | body => body

def stampStream (path : Path) (request : Outbound) : Outbound :=
  match path with
  | .buffered => request
  | .live => { request with jsonBody := request.jsonBody.map forceStream }

/-- The JSON value of what the executor sends. -/
def sentValue (request : Outbound) : Option Json :=
  match request.body with
  | some bytes => serde.fromSlice bytes
  | none => request.jsonBody

def sentBody (path : Path) (passThrough : PassThrough) (overrides : ChannelOverrides)
    (request : Outbound) : Option Json :=
  sentValue serde (stampStream path
    (passThroughRequestBody serde passThrough (overrideRequest serde overrides request)))

end Middlewares

/-! ## Effect -/

section Effect

variable (serde : Serde)

/-- The parameters first, then the operations in order. -/
def applyOverrides (overrides : ChannelOverrides) (body : Json) : Json :=
  overrides.bodyOps.foldl (applyOrKeep serde) (mergeParameters serde overrides.parameters body)

/-- A top-level field that a parameter or an operation names. -/
def Touches (overrides : ChannelOverrides) (name : String) : Prop :=
  (∃ params, serde.fromStr overrides.parameters = some (.object params) ∧
    name ∈ params.map Prod.fst) ∨
  ∃ op ∈ overrides.bodyOps, ∃ path ∈ [op.path, op.fromPath, op.toPath],
    (segments path).head? = some name

/-- The body sent is the one that would be sent without overrides, with the
overrides applied; other fields keep their values. -/
structure InEffect (path : Path) (passThrough : PassThrough) (overrides : ChannelOverrides)
    (request : Outbound) : Prop where
  applied : sentBody serde path passThrough overrides request =
    (sentBody serde path passThrough {} request).map (applyOverrides serde overrides)
  untouched : ∀ name, ¬ Touches serde overrides name → ∀ body body',
    sentBody serde path passThrough {} request = some body →
    sentBody serde path passThrough overrides request = some body' →
    body'.get name = body.get name

/-- The bytes that stand before the JSON body. -/
def fixedBytes (passThrough : PassThrough) (request : Outbound) : Option (List UInt8) :=
  (passedThrough serde passThrough).or request.body

end Effect

/-! ## Other fields -/

theorem get_replaceChild {value : Json} {seg name : String} (h : seg ≠ name) (child : Json) :
    (replaceChild value seg child).get name = value.get name := by
  cases value with
  | object fields =>
      show Json.field (Json.insert seg child fields) name = Json.field fields name
      rw [Json.field_insert, if_neg (Ne.symm h)]
  | array values =>
      unfold replaceChild
      dsimp only
      cases ParseInt.parseIndex seg with
      | none => rfl
      | some i => rfl
  | _ => rfl

theorem get_removeChild {value : Json} {key name : String} (h : key ≠ name) :
    (removeChild value key).1.get name = value.get name := by
  cases value with
  | object fields =>
      show Json.field (Json.remove key fields) name = Json.field fields name
      rw [Json.field_remove, if_neg (Ne.symm h)]
  | array values =>
      unfold removeChild
      dsimp only
      cases ParseInt.parseIndex key with
      | none => rfl
      | some i =>
          dsimp only
          split <;> rfl
  | _ => rfl

theorem get_withChild {value : Json} {seg name : String} (h : seg ≠ name) :
    (withChild value seg).get name = value.get name := by
  rcases withChild_cases value seg with ⟨_, _, heq⟩ | ⟨_, _, _, heq⟩ | ⟨_, _, heq⟩
  · rw [heq]
  · rw [heq, get_replaceChild h]
  · rw [heq]

theorem get_setSegments {p : List String} {name : String} (h : p.head? ≠ some name)
    (new value : Json) : (setSegments p new value).get name = value.get name := by
  rcases p with _ | ⟨seg, _ | ⟨next, rest⟩⟩
  · rfl
  · exact get_replaceChild (by simpa using h) new
  · have hseg : seg ≠ name := by simpa using h
    unfold setSegments
    cases navigateOneLevel (withChild value seg) seg with
    | none => exact get_withChild hseg
    | some child => exact (get_replaceChild hseg _).trans (get_withChild hseg)

theorem get_deleteSegments_head {p : List String} {name : String} (h : p.head? ≠ some name)
    (value : Json) : (deleteSegments p value).1.get name = value.get name := by
  rcases p with _ | ⟨seg, _ | ⟨next, rest⟩⟩
  · rfl
  · exact get_removeChild (by simpa using h)
  · have hseg : seg ≠ name := by simpa using h
    unfold deleteSegments
    cases navigateOneLevel value seg with
    | none => rfl
    | some child => exact get_replaceChild hseg _

theorem get_setAtPath {path name : String} (h : (segments path).head? ≠ some name)
    (body new : Json) : (setAtPath body path new).get name = body.get name :=
  get_setSegments h new body

theorem get_deleteAtPath {path name : String} (h : (segments path).head? ≠ some name)
    (body : Json) : (deleteAtPath body path).1.get name = body.get name :=
  get_deleteSegments_head h body

section Frame

variable {serde : Serde}

theorem get_arrayInsert {op : Operation} {mode : ArrayInsertMode} {name : String} {body body' : Json}
    (h : (segments op.path).head? ≠ some name)
    (hop : applyBodyArrayInsert serde body op mode = .ok body') : body'.get name = body.get name := by
  unfold applyBodyArrayInsert at hop
  split at hop
  · cases hop
  · dsimp only at hop
    split at hop
    · obtain rfl := Except.ok.inj hop
      exact get_setAtPath h _ _
    · next current _ =>
        cases hposition : insertPosition mode op.index current.length with
        | error err => rw [hposition] at hop; cases hop
        | ok position =>
            rw [hposition] at hop
            obtain rfl := Except.ok.inj hop
            exact get_setAtPath h _ _
    · cases hop

theorem get_arrayRemove {op : Operation} {name : String} {body body' : Json}
    (h : (segments op.path).head? ≠ some name)
    (hop : applyBodyArrayRemove body op = .ok body') : body'.get name = body.get name := by
  unfold applyBodyArrayRemove at hop
  split at hop
  · cases hop
  split at hop
  · cases hop
  split at hop
  · cases hop
  split at hop
  · cases hop
  split at hop
  · rw [Except.ok.inj hop]
  · obtain rfl := Except.ok.inj hop
    exact get_setAtPath h _ _
  · cases hop

/-- An operation changes no field that its paths do not start with. -/
theorem get_applyBodyOperation {op : Operation} {name : String} {body body' : Json}
    (h : ∀ path ∈ [op.path, op.fromPath, op.toPath], (segments path).head? ≠ some name)
    (hop : applyBodyOperation serde body op = .ok body') : body'.get name = body.get name := by
  have hpath := h op.path (by simp)
  have hfrom := h op.fromPath (by simp)
  have hto := h op.toPath (by simp)
  unfold applyBodyOperation at hop
  split at hop
  · -- a set, or the deletion that a value stands for
    obtain rfl := Except.ok.inj hop
    unfold applyBodySet
    dsimp only
    split
    · exact get_deleteAtPath hpath body
    · exact get_setAtPath hpath body _
  split at hop
  · obtain rfl := Except.ok.inj hop
    exact get_deleteAtPath hpath body
  split at hop
  · obtain rfl := Except.ok.inj hop
    unfold applyBodyRename
    split
    · exact (get_setAtPath hto _ _).trans (get_deleteAtPath hfrom body)
    · rfl
  split at hop
  · obtain rfl := Except.ok.inj hop
    unfold applyBodyCopy
    split
    · exact get_setAtPath hto _ _
    · rfl
  split at hop
  · exact get_arrayInsert hpath hop
  split at hop
  · exact get_arrayInsert hpath hop
  split at hop
  · exact get_arrayInsert hpath hop
  split at hop
  · exact get_arrayRemove hpath hop
  · cases hop

theorem get_applyOrKeep {op : Operation} {name : String}
    (h : ∀ path ∈ [op.path, op.fromPath, op.toPath], (segments path).head? ≠ some name)
    (body : Json) : (applyOrKeep serde body op).get name = body.get name := by
  unfold applyOrKeep
  cases hop : applyBodyOperation serde body op with
  | ok body' => exact get_applyBodyOperation h hop
  | error err => rfl

theorem field_insertAll {params : List (String × Json)} {name : String}
    (h : name ∉ params.map Prod.fst) (fields : List (String × Json)) :
    Json.field (params.foldl (fun fields entry => Json.insert entry.1 entry.2 fields) fields) name =
      Json.field fields name := by
  induction params generalizing fields with
  | nil => rfl
  | cons entry params ih =>
      rw [List.map_cons, List.mem_cons, not_or] at h
      rw [List.foldl_cons, ih h.2, Json.field_insert, if_neg h.1]

theorem get_mergeParameters {parameters name : String}
    (h : ∀ params, serde.fromStr parameters = some (.object params) → name ∉ params.map Prod.fst)
    (body : Json) : (mergeParameters serde parameters body).get name = body.get name := by
  unfold mergeParameters
  split
  · next params fields hparams =>
      split at hparams
      · cases hparams
      · exact field_insertAll (h params hparams) fields
  · rfl

/-- The overrides leave every field that they do not touch. -/
theorem get_applyOverrides {overrides : ChannelOverrides} {name : String}
    (h : ¬ Touches serde overrides name) (body : Json) :
    (applyOverrides serde overrides body).get name = body.get name := by
  unfold Touches at h
  rw [not_or] at h
  obtain ⟨hparams, hops⟩ := h
  have hmerged := get_mergeParameters
    (fun params hread hmem => hparams ⟨params, hread, hmem⟩) body
  unfold applyOverrides
  rw [← hmerged]
  have hheads : ∀ op ∈ overrides.bodyOps, ∀ path ∈ [op.path, op.fromPath, op.toPath],
      (segments path).head? ≠ some name :=
    fun op hop path hpath hhead => hops ⟨op, hop, path, hpath, hhead⟩
  generalize mergeParameters serde overrides.parameters body = start
  generalize overrides.bodyOps = ops at hheads
  induction ops generalizing start with
  | nil => rfl
  | cons op ops ih =>
      rw [List.foldl_cons, ih _ fun op hop => hheads op (List.mem_cons_of_mem _ hop)]
      exact get_applyOrKeep (hheads op List.mem_cons_self) start

end Frame

/-! ## The body that is sent -/

section Sent

variable (serde : Serde)

theorem mergeParameters_empty (body : Json) : mergeParameters serde "" body = body := by
  unfold mergeParameters
  rw [if_pos rfl]

@[simp] theorem applyOverrides_none (body : Json) : applyOverrides serde {} body = body :=
  mergeParameters_empty serde body

theorem overrideRequest_eq (overrides : ChannelOverrides) (request : Outbound) :
    overrideRequest serde overrides request =
      { request with jsonBody := request.jsonBody.map (applyOverrides serde overrides) } := by
  unfold overrideRequest
  split
  · next hempty =>
      simp only [Bool.and_eq_true, List.isEmpty_iff] at hempty
      have hops : applyOverrides serde overrides = mergeParameters serde overrides.parameters := by
        funext body
        unfold applyOverrides
        rw [hempty.1.1]
        rfl
      rw [hops]
      split
      · next hparameters =>
          have hid : mergeParameters serde overrides.parameters = id := by
            funext body
            rw [hparameters]
            exact mergeParameters_empty serde body
          rw [hid, Option.map_id]
          rfl
      · rfl
  · rfl

variable (path : Path) (passThrough : PassThrough) (overrides : ChannelOverrides)
  (request : Outbound)

/-- The JSON body, as a live stream is stamped. -/
def stamped (path : Path) (body : Json) : Json :=
  match path with
  | .buffered => body
  | .live => forceStream body

/-- Fixed bytes are sent as they are; else the JSON body with its overrides. -/
theorem sentBody_fixed {bytes : List UInt8} (h : fixedBytes serde passThrough request = some bytes) :
    sentBody serde path passThrough overrides request = serde.fromSlice bytes := by
  have hbody : (stampStream path (passThroughRequestBody serde passThrough
      (overrideRequest serde overrides request))).body = some bytes := by
    unfold fixedBytes at h
    rw [overrideRequest_eq]
    unfold passThroughRequestBody
    cases hpassed : passedThrough serde passThrough with
    | some bytes' =>
        rw [hpassed] at h
        cases path <;> exact h
    | none =>
        rw [hpassed] at h
        cases path <;> exact h
  unfold sentBody sentValue
  rw [hbody]

theorem sentBody_json (h : fixedBytes serde passThrough request = none) :
    sentBody serde path passThrough overrides request =
      request.jsonBody.map fun body => stamped path (applyOverrides serde overrides body) := by
  obtain ⟨hpassed, hbody⟩ := Option.or_eq_none_iff.mp h
  have hrequest : passThroughRequestBody serde passThrough
      (overrideRequest serde overrides request) =
        ⟨none, request.jsonBody.map (applyOverrides serde overrides)⟩ := by
    rw [overrideRequest_eq, hbody]
    unfold passThroughRequestBody
    rw [hpassed]
  unfold sentBody
  rw [hrequest]
  cases path with
  | buffered => rfl
  | live => exact Option.map_map _ _ _

/-- Either the overrides change nothing in the bytes that stand before the JSON
body, or there are none and the overrides keep the stamp of a live stream. -/
def Effective : Prop :=
  match fixedBytes serde passThrough request with
  | some bytes => (serde.fromSlice bytes).map (applyOverrides serde overrides) =
      serde.fromSlice bytes
  | none => ∀ body ∈ request.jsonBody,
      stamped path (applyOverrides serde overrides body) =
        applyOverrides serde overrides (stamped path body)

/-- Exactly when the configured overrides take effect on what is sent. -/
theorem overrides_in_effect_iff :
    InEffect serde path passThrough overrides request ↔
      Effective serde path passThrough overrides request := by
  unfold Effective
  cases hfixed : fixedBytes serde passThrough request with
  | some bytes =>
      constructor
      · intro h
        have happlied := h.applied
        rw [sentBody_fixed serde path passThrough _ request hfixed,
          sentBody_fixed serde path passThrough _ request hfixed] at happlied
        exact happlied.symm
      · intro h
        constructor
        · rw [sentBody_fixed serde path passThrough _ request hfixed,
            sentBody_fixed serde path passThrough _ request hfixed]
          exact h.symm
        · intro name _ body body' hbody hbody'
          rw [sentBody_fixed serde path passThrough _ request hfixed] at hbody hbody'
          rw [Option.some.inj (hbody'.symm.trans hbody)]
  | none =>
      have hplain := sentBody_json serde path passThrough {} request hfixed
      have hsent := sentBody_json serde path passThrough overrides request hfixed
      constructor
      · intro h body hbody
        have happlied := h.applied
        rw [hplain, hsent, hbody] at happlied
        simpa using happlied
      · intro h
        constructor
        · rw [hplain, hsent]
          cases hbody : request.jsonBody with
          | none => rfl
          | some body => simpa using h body hbody
        · intro name hname body body' hbody hbody'
          rw [hplain] at hbody
          rw [hsent] at hbody'
          obtain ⟨json, hjson, rfl⟩ := Option.map_eq_some_iff.mp hbody
          obtain ⟨json', hjson', rfl⟩ := Option.map_eq_some_iff.mp hbody'
          obtain rfl := Option.some.inj (hjson.symm.trans hjson')
          rw [h json hjson, get_applyOverrides hname, applyOverrides_none]

end Sent

/-! ## Live streams -/

section Live

variable {serde : Serde}

/-- A body that says already whether it streams. -/
def Streams (body : Json) : Prop := (body.get "stream").isSome

theorem Streams.object {body : Json} (h : Streams body) :
    ∃ fields, body = .object fields ∧ (Json.field fields "stream").isSome := by
  cases body with
  | object fields => exact ⟨fields, rfl, h⟩
  | _ => exact absurd h (by simp [Streams, Json.get])

theorem navigate_forceStream {seg : String} (h : seg ≠ "stream") (body : Json) :
    navigateOneLevel (forceStream body) seg = navigateOneLevel body seg := by
  cases body with
  | object fields =>
      show Json.field (Json.insert "stream" (.bool true) fields) seg = Json.field fields seg
      rw [Json.field_insert, if_neg h]
  | _ => rfl

theorem replaceChild_forceStream {seg : String} (h : seg ≠ "stream") {body : Json}
    (hstreams : Streams body) (child : Json) :
    replaceChild (forceStream body) seg child = forceStream (replaceChild body seg child) := by
  obtain ⟨fields, rfl, hthere⟩ := hstreams.object
  exact congrArg Json.object (Json.insert_comm h hthere _ _)

theorem removeChild_forceStream {key : String} (h : key ≠ "stream") {body : Json}
    (hstreams : Streams body) :
    (removeChild (forceStream body) key).1 = forceStream (removeChild body key).1 := by
  obtain ⟨fields, rfl, _⟩ := hstreams.object
  exact congrArg Json.object (Json.remove_insert h _ fields)

theorem withChild_forceStream {seg : String} (h : seg ≠ "stream") {body : Json}
    (hstreams : Streams body) :
    withChild (forceStream body) seg = forceStream (withChild body seg) := by
  have hread := navigate_forceStream h body
  obtain ⟨fields, rfl, hthere⟩ := hstreams.object
  unfold withChild
  rw [hread]
  cases navigateOneLevel (.object fields) seg with
  | none => exact congrArg Json.object (Json.insert_comm h hthere _ _)
  | some child => rfl

theorem Streams.withChild {seg : String} (h : seg ≠ "stream") {body : Json}
    (hstreams : Streams body) : Streams (withChild body seg) := by
  unfold Streams
  rw [get_withChild h]
  exact hstreams

theorem setSegments_forceStream {p : List String} (h : p.head? ≠ some "stream") {body : Json}
    (hstreams : Streams body) (new : Json) :
    setSegments p new (forceStream body) = forceStream (setSegments p new body) := by
  rcases p with _ | ⟨seg, _ | ⟨next, rest⟩⟩
  · rfl
  · exact replaceChild_forceStream (by simpa using h) hstreams new
  · have hseg : seg ≠ "stream" := by simpa using h
    unfold setSegments
    rw [withChild_forceStream hseg hstreams, navigate_forceStream hseg]
    cases navigateOneLevel (BodyOverride.withChild body seg) seg with
    | none => rfl
    | some child => exact replaceChild_forceStream hseg (hstreams.withChild hseg) _

theorem deleteSegments_forceStream {p : List String} (h : p.head? ≠ some "stream") {body : Json}
    (hstreams : Streams body) :
    (deleteSegments p (forceStream body)).1 = forceStream (deleteSegments p body).1 := by
  rcases p with _ | ⟨seg, _ | ⟨next, rest⟩⟩
  · rfl
  · exact removeChild_forceStream (by simpa using h) hstreams
  · have hseg : seg ≠ "stream" := by simpa using h
    unfold deleteSegments
    rw [navigate_forceStream hseg]
    cases navigateOneLevel body seg with
    | none => rfl
    | some child => exact replaceChild_forceStream hseg hstreams _

theorem getAtPath_forceStream {path : String} (h : (segments path).head? ≠ some "stream")
    (hpath : segments path ≠ []) (body : Json) :
    getAtPath (forceStream body) path = getAtPath body path := by
  unfold getAtPath
  revert h hpath
  cases segments path with
  | nil => exact fun _ hpath => absurd rfl hpath
  | cons seg rest =>
      intro h _
      unfold getSegments
      rw [navigate_forceStream (by simpa using h)]

/-- No operation copies the whole body, whose stamp would come with it. -/
def CopiesParts (overrides : ChannelOverrides) : Prop :=
  ∀ op ∈ overrides.bodyOps, op.op ∈ ["rename", "copy"] → segments op.fromPath ≠ []

section Operation

variable {op : Operation} {body : Json}

/-- An array operation reads no more than its path; the body itself is no array. -/
theorem getArray_forceStream (h : (segments op.path).head? ≠ some "stream")
    (hstreams : Streams body) :
    getAtPath (forceStream body) op.path = getAtPath body op.path ∨
      ∃ fields fields', getAtPath (forceStream body) op.path = some (.object fields) ∧
        getAtPath body op.path = some (.object fields') := by
  by_cases hpath : segments op.path = []
  · right
    obtain ⟨fields, rfl, _⟩ := hstreams.object
    unfold getAtPath
    rw [hpath]
    exact ⟨_, fields, rfl, rfl⟩
  · exact .inl (getAtPath_forceStream h hpath body)

theorem arrayInsert_forceStream (h : (segments op.path).head? ≠ some "stream")
    (hstreams : Streams body) (mode : ArrayInsertMode) :
    applyBodyArrayInsert serde (forceStream body) op mode =
      (applyBodyArrayInsert serde body op mode).map forceStream := by
  have hset := setSegments_forceStream h hstreams
  unfold applyBodyArrayInsert
  split_ifs with hempty
  · rfl
  · dsimp only
    rcases getArray_forceStream h hstreams with hread | ⟨fields, fields', hread, hread'⟩
    · rw [hread]
      cases getAtPath body op.path with
      | none => exact congrArg Except.ok (hset _)
      | some value =>
          cases value with
          | array current =>
              dsimp only
              cases insertPosition mode op.index current.length with
              | error err => rfl
              | ok position => exact congrArg Except.ok (hset _)
          | _ => rfl
    · rw [hread, hread']
      rfl

theorem arrayRemove_forceStream (h : (segments op.path).head? ≠ some "stream")
    (hstreams : Streams body) :
    applyBodyArrayRemove (forceStream body) op =
      (applyBodyArrayRemove body op).map forceStream := by
  have hset := setSegments_forceStream h hstreams
  unfold applyBodyArrayRemove
  split_ifs with hempty
  · rfl
  · cases op.matching with
    | none => rfl
    | some matching =>
        dsimp only
        split_ifs with hpath heq
        · rfl
        · rfl
        · rcases getArray_forceStream h hstreams with hread | ⟨fields, fields', hread, hread'⟩
          · rw [hread]
            cases getAtPath body op.path with
            | none => rfl
            | some value =>
                cases value with
                | array values => exact congrArg Except.ok (hset _)
                | _ => rfl
          · rw [hread, hread']
            rfl

/-- An operation beside `stream` does the same to a stamped body. -/
theorem applyBodyOperation_forceStream
    (h : ∀ path ∈ [op.path, op.fromPath, op.toPath], (segments path).head? ≠ some "stream")
    (hparts : op.op ∈ ["rename", "copy"] → segments op.fromPath ≠ []) (hstreams : Streams body) :
    applyBodyOperation serde (forceStream body) op =
      (applyBodyOperation serde body op).map forceStream := by
  have hpath := h op.path (by simp)
  have hfrom := h op.fromPath (by simp)
  have hto := h op.toPath (by simp)
  unfold applyBodyOperation
  split_ifs with hset hdelete hrename hcopy
  · unfold applyBodySet
    dsimp only
    split_ifs with hclear
    · exact congrArg Except.ok (deleteSegments_forceStream hpath hstreams)
    · exact congrArg Except.ok (setSegments_forceStream hpath hstreams _)
  · exact congrArg Except.ok (deleteSegments_forceStream hpath hstreams)
  · have hread := getAtPath_forceStream hfrom (hparts (by simp [hrename])) body
    unfold applyBodyRename
    rw [hread]
    cases getAtPath body op.fromPath with
    | none => rfl
    | some value =>
        have hdeleted : Streams (deleteAtPath body op.fromPath).1 := by
          unfold Streams
          rw [get_deleteAtPath hfrom]
          exact hstreams
        show Except.ok (setAtPath (deleteAtPath (forceStream body) op.fromPath).1 op.toPath value) =
          Except.ok (forceStream (setAtPath (deleteAtPath body op.fromPath).1 op.toPath value))
        rw [show (deleteAtPath (forceStream body) op.fromPath).1 =
            forceStream (deleteAtPath body op.fromPath).1 from
          deleteSegments_forceStream hfrom hstreams]
        exact congrArg Except.ok (setSegments_forceStream hto hdeleted value)
  · have hread := getAtPath_forceStream hfrom (hparts (by simp [hcopy])) body
    unfold applyBodyCopy
    rw [hread]
    cases getAtPath body op.fromPath with
    | none => rfl
    | some value => exact congrArg Except.ok (setSegments_forceStream hto hstreams value)
  · exact arrayInsert_forceStream hpath hstreams .endOf
  · exact arrayInsert_forceStream hpath hstreams .start
  · exact arrayInsert_forceStream hpath hstreams .atIndex
  · exact arrayRemove_forceStream hpath hstreams
  · rfl

theorem applyOrKeep_forceStream
    (h : ∀ path ∈ [op.path, op.fromPath, op.toPath], (segments path).head? ≠ some "stream")
    (hparts : op.op ∈ ["rename", "copy"] → segments op.fromPath ≠ []) (hstreams : Streams body) :
    applyOrKeep serde (forceStream body) op = forceStream (applyOrKeep serde body op) := by
  unfold applyOrKeep
  rw [applyBodyOperation_forceStream h hparts hstreams]
  cases applyBodyOperation serde body op with
  | ok body' => rfl
  | error err => rfl

end Operation

theorem insertAll_forceStream {params : List (String × Json)} (h : "stream" ∉ params.map Prod.fst)
    {fields : List (String × Json)} (hthere : (Json.field fields "stream").isSome) :
    params.foldl (fun fields entry => Json.insert entry.1 entry.2 fields)
        (Json.insert "stream" (.bool true) fields) =
      Json.insert "stream" (.bool true)
        (params.foldl (fun fields entry => Json.insert entry.1 entry.2 fields) fields) := by
  induction params generalizing fields with
  | nil => rfl
  | cons entry params ih =>
      rw [List.map_cons, List.mem_cons, not_or] at h
      have hnext : (Json.field (Json.insert entry.1 entry.2 fields) "stream").isSome := by
        rw [Json.field_insert, if_neg h.1]
        exact hthere
      rw [List.foldl_cons, List.foldl_cons, Json.insert_comm (Ne.symm h.1) hthere, ih h.2 hnext]

theorem mergeParameters_forceStream {parameters : String}
    (h : ∀ params, serde.fromStr parameters = some (.object params) →
      "stream" ∉ params.map Prod.fst) {body : Json} (hstreams : Streams body) :
    mergeParameters serde parameters (forceStream body) =
      forceStream (mergeParameters serde parameters body) := by
  obtain ⟨fields, rfl, hthere⟩ := hstreams.object
  unfold mergeParameters
  by_cases hempty : parameters = ""
  · rw [if_pos hempty]
  · rw [if_neg hempty]
    cases hread : serde.fromStr parameters with
    | none => rfl
    | some value =>
        cases value with
        | object params => exact congrArg Json.object (insertAll_forceStream (h params hread) hthere)
        | _ => rfl

/-- Overrides beside `stream` do the same to a stamped body. -/
theorem applyOverrides_forceStream {overrides : ChannelOverrides}
    (h : ¬ Touches serde overrides "stream") (hparts : CopiesParts overrides) {body : Json}
    (hstreams : Streams body) :
    applyOverrides serde overrides (forceStream body) =
      forceStream (applyOverrides serde overrides body) := by
  unfold Touches at h
  rw [not_or] at h
  obtain ⟨hparams, hops⟩ := h
  have hnames : ∀ params, serde.fromStr overrides.parameters = some (.object params) →
      "stream" ∉ params.map Prod.fst := fun params hread hmem => hparams ⟨params, hread, hmem⟩
  have hheads : ∀ op ∈ overrides.bodyOps, ∀ path ∈ [op.path, op.fromPath, op.toPath],
      (segments path).head? ≠ some "stream" :=
    fun op hop path hpath hhead => hops ⟨op, hop, path, hpath, hhead⟩
  have hmerged : Streams (mergeParameters serde overrides.parameters body) := by
    unfold Streams
    rw [get_mergeParameters hnames]
    exact hstreams
  unfold CopiesParts at hparts
  unfold applyOverrides
  rw [mergeParameters_forceStream hnames hstreams]
  generalize mergeParameters serde overrides.parameters body = start at hmerged
  generalize overrides.bodyOps = ops at hheads hparts
  induction ops generalizing start with
  | nil => rfl
  | cons op ops ih =>
      have hhead := hheads op List.mem_cons_self
      have hnext : Streams (applyOrKeep serde start op) := by
        unfold Streams
        rw [get_applyOrKeep hhead]
        exact hmerged
      rw [List.foldl_cons, List.foldl_cons,
        applyOrKeep_forceStream hhead (hparts op List.mem_cons_self) hmerged]
      exact ih _ hnext (fun op hop => hheads op (List.mem_cons_of_mem _ hop))
        fun op hop => hparts op (List.mem_cons_of_mem _ hop)

/-- On either path, overrides beside `stream` take effect on a JSON body. -/
theorem effective_of_untouched {path : Path} {passThrough : PassThrough}
    {overrides : ChannelOverrides} {request : Outbound}
    (hfixed : fixedBytes serde passThrough request = none)
    (hbody : ∀ body ∈ request.jsonBody, Streams body)
    (h : ¬ Touches serde overrides "stream") (hparts : CopiesParts overrides) :
    Effective serde path passThrough overrides request := by
  unfold Effective
  rw [hfixed]
  intro body hmem
  cases path with
  | buffered => rfl
  | live => exact (applyOverrides_forceStream h hparts (hbody body hmem)).symm

end Live

/-! ## A request that comes as bytes -/

def messagesText : String := "\x7b\"model\":\"claude\"\x7d"

def topKText : String := "\x7b\"top_k\":5\x7d"

/-- Reads the two texts. -/
def sampleSerde : Serde where
  fromStr text := if text = topKText then some (.object [("top_k", .int 5)]) else none
  fromSlice bytes :=
    if bytes = Text.asBytes messagesText then some (.object [("model", .string "claude")]) else none
  toVec _ := []

/-- The transformer for Anthropic hands its body over as bytes: the parameters
of the channel have no effect. -/
theorem parameters_ignored_for_bytes :
    ¬ ∀ (serde : Serde) (path : Path) (passThrough : PassThrough) (overrides : ChannelOverrides)
      (request : Outbound), InEffect serde path passThrough overrides request := by
  intro h
  have happlied := (h sampleSerde .buffered ⟨false, none, none, none, ""⟩
    { parameters := topKText } { body := some (Text.asBytes messagesText) }).applied
  have hfield := congrArg (fun sent => (sent.bind (·.get "top_k")).isSome) happlied
  revert hfield
  decide

end Conduit.Orchestrator.SentBody
