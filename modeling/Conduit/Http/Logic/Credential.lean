import Conduit.Http.ClientRequest

/-!
# Where a credential goes

Two client requests that differ in the credential only. Each place that
carries a credential is one header or one pair of the query; what the upstream
request takes from a client request is computed for both.
-/

namespace Conduit.Http

open Base.Text Pipeline ApiKeyAuth OpenAiHandlers

/-! ## Requests that differ in the credential -/

/-- The place of the accepted credential. -/
def source (request : ClientRequest) : Option ApiKeySource :=
  (extractApiKey request.headers request.uri).map RawApiKey.source

def ClientRequest.withHeader (request : ClientRequest) (name : String) (value : HeaderValue) :
    ClientRequest :=
  { request with
    headers := Function.update request.headers name (value :: (request.headers name).tail) }

/-- Another text in the first pair that carries a credential. -/
def replaceKey (text : List Char) : List (List Char) → List (List Char)
  | [] => []
  | pair :: pairs =>
      if (pairKey pair).isSome then ("key=".toList ++ text) :: pairs
      else pair :: replaceKey text pairs

def ClientRequest.withKey (request : ClientRequest) (text : List Char) : ClientRequest :=
  { request with
    uri := { request.uri with
      query := request.uri.query.map fun query =>
        String.ofList (['&'].intercalate (replaceKey text (query.toList.splitOn '&'))) } }

/-- The other request carries another credential in the same place and is the
same everywhere else. -/
inductive SameButCredential (request : ClientRequest) : ClientRequest → Prop
  | bearer (value : HeaderValue) (here : source request = some .bearer)
      (there : source (request.withHeader "authorization" value) = some .bearer) :
      SameButCredential request (request.withHeader "authorization" value)
  | geminiHeader (value : HeaderValue) (here : source request = some .geminiHeader)
      (there : source (request.withHeader "x-goog-api-key" value) = some .geminiHeader) :
      SameButCredential request (request.withHeader "x-goog-api-key" value)
  | queryParam (text : List Char) (pair : '&' ∉ text) (here : source request = some .queryParam)
      (there : source (request.withKey text) = some .queryParam) :
      SameButCredential request (request.withKey text)

/-- The request that the pipeline has ready for the outbound middlewares. -/
def upstreamRequest (target : PipelineCandidate) (outbound : HttpRequest)
    (metadata : String → Option JsonValue) (request : ClientRequest) : HttpRequest :=
  stampOutboundTarget (mergeInbound outbound (buildOpenaiHttpRequest metadata request)) target

/-! ## What is merged -/

/-- What the merge reads of an inbound request. -/
structure SameMerged (outbound inbound inbound' : HttpRequest) : Prop where
  method : inbound.method = inbound'.method
  headers : ∀ name : String, unmergedHeaders.any (eqIgnoreAsciiCase name) = false →
    inbound.headers name = inbound'.headers name
  query : outbound.skipInboundQueryMerge = false →
    ∀ key : String, outbound.query key = none → inbound.query key = inbound'.query key
  contentType : inbound.contentType = inbound'.contentType

theorem SameMerged.mergeInbound_eq {outbound inbound inbound' : HttpRequest}
    (h : SameMerged outbound inbound inbound') :
    mergeInbound outbound inbound = mergeInbound outbound inbound' := by
  have hheaders : (mergeInbound outbound inbound).headers =
      (mergeInbound outbound inbound').headers := by
    funext name
    unfold mergeInbound
    dsimp only
    split_ifs with hunmerged
    · rfl
    · rw [h.headers name (Bool.eq_false_iff.mpr hunmerged)]
  have hquery : (mergeInbound outbound inbound).query = (mergeInbound outbound inbound').query := by
    funext key
    unfold mergeInbound
    dsimp only
    split_ifs with hskip
    · rfl
    · cases hkey : outbound.query key with
      | some values => rfl
      | none => rw [h.query (Bool.eq_false_iff.mpr hskip) key hkey]
  unfold mergeInbound at hheaders hquery ⊢
  dsimp only at hheaders hquery
  rw [hheaders, hquery, h.method, h.contentType]

/-- Stamping leaves the query alone. -/
theorem stampOutboundTarget_query (httpReq : HttpRequest) (target : PipelineCandidate) :
    (stampOutboundTarget httpReq target).query = httpReq.query := by
  unfold stampOutboundTarget
  dsimp only
  cases target.credential with
  | none => rfl
  | some credential =>
      dsimp only
      unfold stampCredential
      dsimp only
      split_ifs <;> rfl

/-! ## Headers -/

/-- A header that is not merged may have any value. -/
theorem sameMerged_withHeader (outbound : HttpRequest) (metadata metadata' : String → Option JsonValue)
    (request : ClientRequest) {name : String} (value : HeaderValue)
    (hname : unmergedHeaders.any (eqIgnoreAsciiCase name) = true)
    (hcontent : name ≠ "content-type") :
    SameMerged outbound (buildOpenaiHttpRequest metadata request)
      (buildOpenaiHttpRequest metadata' (request.withHeader name value)) := by
  have hother : ∀ other : String, other ≠ name →
      (request.withHeader name value).headers other = request.headers other :=
    fun other hne => Function.update_of_ne hne _ _
  refine ⟨rfl, ?_, fun _ _ _ => rfl, ?_⟩
  · intro other hmerged
    have hne : other ≠ name := by
      rintro rfl
      rw [hname] at hmerged
      exact Bool.noConfusion hmerged
    unfold buildOpenaiHttpRequest
    dsimp only
    rw [hother other hne]
  · unfold buildOpenaiHttpRequest
    dsimp only
    rw [hother _ (Ne.symm hcontent)]

/-! ## Queries -/

/-- The values of a key, in order. -/
def valuesOf (key : String) (pairs : List (String × String)) : List String :=
  (pairs.filter fun pair => pair.1 = key).map Prod.snd

theorem foldl_pushValue (key : String) (pairs : List (String × String)) (query : QueryMap) :
    (pairs.foldl pushValue query) key =
      if valuesOf key pairs = [] then query key
      else some ((query key).getD [] ++ valuesOf key pairs) := by
  induction pairs generalizing query with
  | nil => rfl
  | cons pair pairs ih =>
      rw [List.foldl_cons, ih]
      unfold valuesOf
      by_cases hkey : pair.1 = key
      · rw [List.filter_cons_of_pos (by simp [hkey]), List.map_cons,
          if_neg (List.cons_ne_nil _ _)]
        have hpushed : pushValue query pair key = some ((query key).getD [] ++ [pair.2]) := by
          unfold pushValue
          rw [hkey, Function.update_self]
        rw [hpushed]
        split_ifs with hempty
        · rw [hempty]
        · rw [Option.getD_some, List.append_assoc]
          rfl
      · rw [List.filter_cons_of_neg (by simp [hkey])]
        have hkept : pushValue query pair key = query key :=
          Function.update_of_ne (Ne.symm hkey) _ _
        rw [hkept]

theorem not_mem_of_mem_splitOn {α : Type} [BEq α] [LawfulBEq α] {a : α} {text piece : List α}
    (h : piece ∈ text.splitOn a) : a ∉ piece := by
  induction text generalizing piece with
  | nil =>
      rw [List.splitOn_nil, List.mem_singleton] at h
      rw [h]
      exact List.not_mem_nil
  | cons x text ih =>
      rw [List.splitOn_cons_eq_if_modifyHead] at h
      by_cases hx : (x == a) = true
      · rw [if_pos hx] at h
        rcases List.mem_cons.mp h with rfl | h
        · exact List.not_mem_nil
        · exact ih h
      · rw [if_neg hx] at h
        obtain ⟨first, rest, hpieces⟩ := List.exists_cons_of_ne_nil (List.splitOn_ne_nil a text)
        rw [hpieces, List.modifyHead_cons] at h
        rcases List.mem_cons.mp h with rfl | h
        · intro hmem
          rcases List.mem_cons.mp hmem with rfl | hmem
          · exact hx (BEq.refl _)
          · exact ih (hpieces ▸ List.mem_cons_self) hmem
        · exact ih (hpieces ▸ List.mem_cons_of_mem _ h)

/-- The first pair that carries a credential. -/
theorem replaceKey_split {pairs : List (List Char)} (h : (pairs.findSome? pairKey).isSome) :
    ∃ before pair after, pairs = before ++ pair :: after ∧ (pairKey pair).isSome ∧
      (∀ other ∈ before, pairKey other = none) ∧
      ∀ text : List Char, replaceKey text pairs = before ++ ("key=".toList ++ text) :: after := by
  induction pairs with
  | nil => exact absurd h (by simp)
  | cons pair pairs ih =>
      by_cases hpair : (pairKey pair).isSome = true
      · exact ⟨[], pair, pairs, rfl, hpair, fun _ hmem => absurd hmem List.not_mem_nil,
          fun text => if_pos hpair⟩
      · have hnone : pairKey pair = none := Option.not_isSome_iff_eq_none.mp hpair
        rw [List.findSome?_cons, hnone] at h
        obtain ⟨before, accepted, after, hpairs, haccepted, hbefore, hreplace⟩ := ih h
        refine ⟨pair :: before, accepted, after, ?_, haccepted, ?_, ?_⟩
        · rw [hpairs, List.cons_append]
        · intro other hmem
          rcases List.mem_cons.mp hmem with rfl | hmem
          · exact hnone
          · exact hbefore other hmem
        · intro text
          unfold replaceKey
          rw [if_neg hpair, hreplace text, List.cons_append]

theorem withKey_pairs {request : ClientRequest} {query : String} {text : List Char}
    (hquery : request.uri.query = some query) (hpair : '&' ∉ text) :
    ∃ query' : String, (request.withKey text).uri.query = some query' ∧
      query'.toList.splitOn '&' = replaceKey text (query.toList.splitOn '&') := by
  refine ⟨String.ofList (['&'].intercalate (replaceKey text (query.toList.splitOn '&'))), ?_, ?_⟩
  · unfold ClientRequest.withKey
    dsimp only
    rw [hquery, Option.map_some]
  · rw [String.toList_ofList]
    have hpieces : ∀ pairs : List (List Char), (∀ piece ∈ pairs, '&' ∉ piece) →
        ∀ piece ∈ replaceKey text pairs, '&' ∉ piece := by
      intro pairs hpairs
      induction pairs with
      | nil => exact hpairs
      | cons pair pairs ih =>
          intro piece hmem
          unfold replaceKey at hmem
          split_ifs at hmem with haccepted
          · rcases List.mem_cons.mp hmem with rfl | hmem
            · intro hand
              rcases List.mem_append.mp hand with hkey | htext
              · exact absurd hkey (by decide)
              · exact hpair htext
            · exact hpairs piece (List.mem_cons_of_mem _ hmem)
          · rcases List.mem_cons.mp hmem with rfl | hmem
            · exact hpairs piece List.mem_cons_self
            · exact ih (fun other hother => hpairs other (List.mem_cons_of_mem _ hother)) piece hmem
    apply List.splitOn_intercalate
    · exact hpieces _ fun piece hmem => not_mem_of_mem_splitOn hmem
    · obtain ⟨first, rest, hsplit⟩ :=
        List.exists_cons_of_ne_nil (List.splitOn_ne_nil '&' query.toList)
      rw [hsplit]
      unfold replaceKey
      split_ifs <;> exact List.cons_ne_nil _ _

/-- A pair that carries a credential has the key `key`. -/
theorem decodePair_key {pair : List Char} (h : (pairKey pair).isSome) :
    (decodePair pair).1 = "key" := by
  have hkey : percentDecode "key".toList = "key" := by decide
  unfold pairKey at h
  unfold decodePair
  cases hsplit : splitAtFirst ['='] pair with
  | none =>
      rw [hsplit, Option.getD_none] at h
      dsimp only at h ⊢
      split_ifs at h with hpair
      · rw [hpair, hkey]
      · exact absurd h (by simp)
  | some parts =>
      obtain ⟨name, value⟩ := parts
      rw [hsplit, Option.getD_some] at h
      dsimp only at h ⊢
      split_ifs at h with hname
      · rw [hname, hkey]
      · exact absurd h (by simp)

theorem decodePair_replaced (text : List Char) :
    decodePair ("key=".toList ++ text) = ("key", percentDecode text) := by
  have hkey : percentDecode "key".toList = "key" := by decide
  have hsplit : splitAtFirst ['='] ("key=".toList ++ text) = some ("key".toList, text) := rfl
  unfold decodePair
  rw [hsplit]
  dsimp only
  rw [hkey]

theorem valuesOf_append (key : String) (pairs pairs' : List (String × String)) :
    valuesOf key (pairs ++ pairs') = valuesOf key pairs ++ valuesOf key pairs' := by
  unfold valuesOf
  rw [List.filter_append, List.map_append]

/-- What the pair of the credential adds to the values of a key. -/
theorem valuesOf_pair (key : String) (pair : List Char) (hpair : (decodePair pair).1 = "key") :
    valuesOf key [decodePair pair] = if key = "key" then [(decodePair pair).2] else [] := by
  unfold valuesOf
  split_ifs with hkey
  · rw [List.filter_cons_of_pos (by simp [hpair, hkey])]
    rfl
  · rw [List.filter_cons_of_neg (by simp [hpair, Ne.symm hkey])]
    rfl

/-- The query is the last place to look. -/
theorem source_queryParam {request : ClientRequest} :
    source request = some .queryParam ↔ extractBearerKey request.headers = none ∧
      extractGeminiHeaderKey request.headers = none ∧ (extractQueryKey request.uri).isSome := by
  unfold source extractApiKey
  cases extractBearerKey request.headers with
  | some key => simp
  | none =>
      cases extractGeminiHeaderKey request.headers with
      | some key => simp
      | none =>
          cases extractQueryKey request.uri with
          | some key => simp
          | none => simp

/-- Any text that is a credential can take the place of the one in a query. -/
theorem source_withKey {request : ClientRequest} {text : List Char}
    (hsource : source request = some .queryParam) (hpair : '&' ∉ text)
    (htext : (pairKey ("key=".toList ++ text)).isSome) :
    source (request.withKey text) = some .queryParam := by
  obtain ⟨hbearer, hgemini, hquery⟩ := source_queryParam.mp hsource
  refine source_queryParam.mpr ⟨hbearer, hgemini, ?_⟩
  unfold extractQueryKey at hquery ⊢
  cases hold : request.uri.query with
  | none =>
      rw [hold] at hquery
      exact absurd hquery (by simp)
  | some query =>
      rw [hold, Option.bind_some] at hquery
      obtain ⟨before, pair, after, hpairs, haccepted, hbefore, hreplace⟩ := replaceKey_split hquery
      obtain ⟨query', hquery', hsplit⟩ := withKey_pairs hold hpair
      rw [hquery', Option.bind_some, hsplit, hreplace text, List.findSome?_isSome_iff]
      exact ⟨_, List.mem_append_right _ List.mem_cons_self, htext⟩

/-- The inbound query of a request that carries the credential in its query:
only the values of `key` depend on it. -/
theorem inbound_query_withKey {request : ClientRequest}
    (hsource : source request = some .queryParam) :
    ∃ before after : String → List String, ∀ (metadata : String → Option JsonValue),
      (∃ value : String, ∀ key : String, (buildOpenaiHttpRequest metadata request).query key =
        let values := before key ++ (if key = "key" then [value] else []) ++ after key
        if values = [] then none else some values) ∧
      ∀ text : List Char, '&' ∉ text → ∀ key : String,
        (buildOpenaiHttpRequest metadata (request.withKey text)).query key =
          let values := before key ++ (if key = "key" then [percentDecode text] else []) ++ after key
          if values = [] then none else some values := by
  have hextract : (extractQueryKey request.uri).isSome := (source_queryParam.mp hsource).2.2
  unfold extractQueryKey at hextract
  cases hquery : request.uri.query with
  | none =>
      rw [hquery] at hextract
      exact absurd hextract (by simp)
  | some query =>
      rw [hquery, Option.bind_some] at hextract
      obtain ⟨before, pair, after, hpairs, haccepted, -, hreplace⟩ := replaceKey_split hextract
      have hquery_of : ∀ (metadata : String → Option JsonValue) (other : ClientRequest)
          (query' : String) (pair' : List Char), other.uri.query = some query' →
          query'.toList.splitOn '&' = before ++ pair' :: after → (decodePair pair').1 = "key" →
          ∀ key : String, (buildOpenaiHttpRequest metadata other).query key =
            let values := valuesOf key (before.map decodePair) ++
              (if key = "key" then [(decodePair pair').2] else []) ++
              valuesOf key (after.map decodePair)
            if values = [] then none else some values := by
        intro metadata other query' pair' hother hsplit hkey key
        unfold buildOpenaiHttpRequest
        dsimp only
        rw [hother]
        dsimp only
        rw [foldl_pushValue]
        unfold urlencodingDecodeQuery
        rw [hsplit, List.map_append, List.map_cons, ← List.singleton_append, ← List.append_assoc,
          valuesOf_append, valuesOf_append, valuesOf_pair key pair' hkey]
        rfl
      refine ⟨fun key => valuesOf key (before.map decodePair),
        fun key => valuesOf key (after.map decodePair), ?_⟩
      intro metadata
      refine ⟨⟨(decodePair pair).2, ?_⟩, ?_⟩
      · exact hquery_of metadata request query pair hquery hpairs (decodePair_key haccepted)
      · intro text htext
        obtain ⟨query', hquery', hsplit⟩ := withKey_pairs hquery htext
        have hkey : (decodePair ("key=".toList ++ text)).1 = "key" := by
          rw [decodePair_replaced]
        have hresult := hquery_of metadata (request.withKey text) query'
          ("key=".toList ++ text) hquery' (hsplit.trans (hreplace text)) hkey
        rw [decodePair_replaced] at hresult
        exact hresult

end Conduit.Http
