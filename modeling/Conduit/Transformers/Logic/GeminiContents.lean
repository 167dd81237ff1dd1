import Conduit.Transformers.GeminiContents
import Conduit.Transformers.Logic.ChatSettings

/-!
# Gemini requests through the unified model

A built body is read back as a request. Texts and inline data come back part by
part, the system text as one part, the functions of all tools in their order,
and so do the native tools; the calling mode comes back with the one name it may
have. What the parser leaves behind is not in the body.
-/

namespace Conduit.Transformers.Gemini

open Base Base.Json ChatSettings

/-! ## Reading a body -/

def blobOf (value : Json) : GeminiBlob :=
  { mimeType := (value.strField "mimeType").getD "", data := (value.strField "data").getD "" }

def partOf (value : Json) : GeminiPart :=
  { text := (value.strField "text").getD ""
    inlineData := (value.get "inlineData").map blobOf
    extra := otherFields ["text", "inlineData"] (value.asObject.getD []) }

def contentOf (value : Json) : GeminiContent :=
  { parts := (((value.get "parts").bind asArray).getD []).map partOf
    role := (value.strField "role").getD "" }

def requestOf (body : ExtensionMap) : GeminiGenerateContentRequest :=
  { contents := (((field body "contents").bind asArray).getD []).map contentOf
    systemInstruction := (field body "systemInstruction").map contentOf
    extra := otherFields ["contents", "systemInstruction"] body }

/-! ## What a request says -/

/-- Texts and inline data, without extra fields. -/
def keptPart (part : GeminiPart) : Option GeminiPart :=
  if part.text = "" ∧ part.inlineData = none then none
  else some { text := part.text, inlineData := part.inlineData }

/-- A content with a part that is kept. -/
def keptContent (content : GeminiContent) : Option GeminiContent :=
  if (content.parts.filterMap keptPart).isEmpty then none
  else some { parts := content.parts.filterMap keptPart, role := content.role }

structure Declaration where
  name : String
  description : String
  schema : Option Json

def declarationOf (declaration : Json) : Declaration :=
  { name := (declaration.strField "name").getD ""
    description := (declaration.strField "description").getD ""
    schema := (nonNullField declaration "parameters").or
      (nonNullField declaration "parametersJsonSchema") }

def declarationsOf (tool : Json) : List Json :=
  ((tool.get "functionDeclarations").bind asArray).getD []

/-- The functions of all tools. -/
def functionsOf (extra : ExtensionMap) : List Declaration :=
  ((rawTools extra).flatMap declarationsOf).map declarationOf

def nativeNames : List String := ["googleSearch", "codeExecution", "urlContext"]

def nativesOf (extra : ExtensionMap) : List String :=
  (rawTools extra).flatMap fun tool => nativeNames.filter fun name => (tool.get name).isSome

/-- The mode, with the names it allows if it is `ANY`. -/
def callingOf (extra : ExtensionMap) : Option (String × List String) :=
  (callingConfig extra).map fun config =>
    (modeOf config, if modeOf config = "ANY" then (allowedNames config).filter (· ≠ "") else [])

/-- A request as its clients write them: two roles, parts of one kind, media
types without parameters, and a known mode with at most one name. -/
structure WellFormed (request : GeminiGenerateContentRequest) : Prop where
  roles : ∀ content ∈ request.contents, content.role = "user" ∨ content.role = "model"
  kinds : ∀ content ∈ request.contents, ∀ part ∈ content.parts,
    part.text = "" ∨ part.inlineData = none
  mimeTypes : ∀ content ∈ request.contents, ∀ part ∈ content.parts, ∀ blob,
    part.inlineData = some blob → ∀ c ∈ blob.mimeType.toList, c ≠ ';' ∧ c ≠ ','
  mode : ∀ config, callingConfig request.extra = some config →
    modeOf config ∈ ["AUTO", "NONE", "ANY"] ∧ (allowedNames config).length ≤ 1

/-- What comes back of a request. -/
structure Survives (request result : GeminiGenerateContentRequest) : Prop where
  contents : result.contents = request.contents.filterMap keptContent
  system : extractTextFromContent result.systemInstruction =
    extractTextFromContent request.systemInstruction
  functions : functionsOf result.extra = functionsOf request.extra
  natives : nativesOf result.extra = nativesOf request.extra
  calling : callingOf result.extra = callingOf request.extra
  config : field result.extra "generationConfig" = none

/-! ## Data URLs -/

theorem startsWith_append (pattern text : String) : Text.startsWith (pattern ++ text) pattern = true := by
  unfold Text.startsWith
  rw [String.toList_append, List.isPrefixOf_iff_prefix]
  exact List.prefix_append _ _

theorem splitAtFirst_char {c : Char} {before : List Char} (h : c ∉ before) (after : List Char) :
    Text.splitAtFirst [c] (before ++ c :: after) = some (before, after) := by
  induction before with
  | nil => simp [Text.splitAtFirst]
  | cons d before ih =>
      rw [List.mem_cons, not_or] at h
      rw [List.cons_append, Text.splitAtFirst, if_neg (by simp [h.1]), ih h.2]
      rfl

/-- The part of a data URL is its blob. -/
theorem convert_dataUrl {mimeType : String} (h : ∀ c ∈ mimeType.toList, c ≠ ';' ∧ c ≠ ',')
    (data : String) :
    convertImageUrlToGeminiPart (buildDataUrl mimeType data) =
      .object [("inlineData",
        .object (nonEmptyField "mimeType" mimeType ++ [("data", .string data)]))] := by
  have hstart : Text.startsWith (buildDataUrl mimeType data) "data:" = true := by
    unfold buildDataUrl
    rw [String.append_assoc, String.append_assoc]
    exact startsWith_append _ _
  have hdrop : (buildDataUrl mimeType data).toList.drop 5 =
      (mimeType.toList ++ ";base64".toList) ++ ',' :: data.toList := by
    unfold buildDataUrl
    simp [String.toList_append]
  have hcomma : ',' ∉ mimeType.toList ++ ";base64".toList := by
    rw [List.mem_append, not_or]
    exact ⟨fun hmem => (h ',' hmem).2 rfl, by decide⟩
  have hsplit : Text.splitOnce "," (String.ofList ((buildDataUrl mimeType data).toList.drop 5)) =
      some (String.ofList (mimeType.toList ++ ";base64".toList), data) := by
    unfold Text.splitOnce
    rw [hdrop]
    have htext := splitAtFirst_char hcomma data.toList
    rw [← @String.toList_ofList ((mimeType.toList ++ ";base64".toList) ++ ',' :: data.toList)] at htext
    refine (congrArg (Option.map _) htext).trans ?_
    rw [Option.map_some, String.ofList_toList]
  have hmime : (String.ofList (mimeType.toList ++ ";base64".toList)).toList.takeWhile (· != ';') =
      mimeType.toList := by
    rw [String.toList_ofList, List.takeWhile_append_of_pos fun c hc => by simpa using (h c hc).1]
    simp
  unfold convertImageUrlToGeminiPart
  rw [if_pos hstart, hsplit]
  dsimp only
  rw [hmime, String.ofList_toList]

/-! ## Parts -/

def blobJson (blob : GeminiBlob) : Json :=
  .object [("inlineData",
    .object (nonEmptyField "mimeType" blob.mimeType ++ [("data", .string blob.data)]))]

/-- What the builder writes for a part of the client. -/
def partJson (part : GeminiPart) : List Json :=
  nonEmptyText part.text ++ (part.inlineData.map blobJson).toList

theorem contentPartJson_text {text : String} (h : text ≠ "") :
    contentPartJson (textPart text) = [geminiTextPart text] := by
  unfold contentPartJson textPart
  rw [if_pos rfl, Option.elim_some, nonEmptyText, if_neg h]

theorem contentPartJson_blob {blob : GeminiBlob}
    (h : ∀ c ∈ blob.mimeType.toList, c ≠ ';' ∧ c ≠ ',') :
    contentPartJson (blobPart blob) = [blobJson blob] := by
  have hurl : buildDataUrl blob.mimeType blob.data ≠ "" := by
    intro hempty
    have hlist := congrArg String.toList hempty
    simp [buildDataUrl, String.toList_append] at hlist
  have hget : ((blobPart blob).imageUrl.bind (·.get "url")).bind asStr =
      some (buildDataUrl blob.mimeType blob.data) := rfl
  unfold contentPartJson
  have htype : (blobPart blob).partType = "image_url" := rfl
  rw [if_neg (by simp [htype]), if_pos htype, hget]
  simp [hurl, convert_dataUrl h, blobJson]

theorem partJson_eq {part : GeminiPart}
    (h : ∀ blob, part.inlineData = some blob → ∀ c ∈ blob.mimeType.toList, c ≠ ';' ∧ c ≠ ',') :
    ((if part.text = "" then [] else [textPart part.text]) ++
      (part.inlineData.map blobPart).toList).flatMap contentPartJson = partJson part := by
  rw [List.flatMap_append]
  unfold partJson
  congr 1
  · by_cases htext : part.text = ""
    · rw [if_pos htext, nonEmptyText, if_pos htext, List.flatMap_nil]
    · rw [if_neg htext, nonEmptyText, if_neg htext, List.flatMap_singleton,
        contentPartJson_text htext]
  · cases hblob : part.inlineData with
    | none => rfl
    | some blob => simp [contentPartJson_blob (h blob hblob)]

theorem collapseParts_singleton (part : ContentPart) :
    collapseParts [part] =
      if part.partType = "text" then some (.text (part.text.getD "")) else some (.parts [part]) := rfl

/-- One text is a text, anything else is a list of parts; the body is the same. -/
theorem bodyParts_collapseParts (parts : List ContentPart) :
    bodyParts (collapseParts parts) = parts.flatMap contentPartJson := by
  rcases parts with _ | ⟨part, _ | ⟨second, rest⟩⟩
  · rfl
  · rw [collapseParts_singleton, List.flatMap_singleton]
    by_cases htype : part.partType = "text"
    · rw [if_pos htype, contentPartJson, if_pos htype]
      cases part.text with
      | none => rfl
      | some text => rfl
    · rw [if_neg htype]
      exact List.flatMap_singleton contentPartJson part
  · rfl

theorem blobOf_blob (blob : GeminiBlob) :
    blobOf (.object (nonEmptyField "mimeType" blob.mimeType ++ [("data", .string blob.data)])) =
      blob := by
  unfold nonEmptyField
  by_cases hmime : blob.mimeType = ""
  · rw [if_pos hmime]
    exact congrArg (GeminiBlob.mk · blob.data) hmime.symm
  · rw [if_neg hmime]
    rfl

theorem partOf_blobJson (blob : GeminiBlob) :
    partOf (blobJson blob) = { inlineData := some blob } :=
  congrArg (fun b : GeminiBlob => ({ inlineData := some b } : GeminiPart)) (blobOf_blob blob)

/-- A part of one kind is read back. -/
theorem partOf_partJson {part : GeminiPart} (h : part.text = "" ∨ part.inlineData = none) :
    (partJson part).map partOf = (keptPart part).toList := by
  unfold partJson keptPart nonEmptyText
  by_cases htext : part.text = ""
  · cases hblob : part.inlineData with
    | none => simp [htext]
    | some blob => simp [htext, partOf_blobJson]
  · rw [h.resolve_left htext, if_neg htext, if_neg fun hboth => htext hboth.1]
    rfl

/-- The parts of a content, as they are written. -/
theorem buildContentParts_json {content : GeminiContent}
    (h : ∀ part ∈ content.parts, ∀ blob, part.inlineData = some blob →
      ∀ c ∈ blob.mimeType.toList, c ≠ ';' ∧ c ≠ ',') :
    (buildContentParts content).flatMap contentPartJson = content.parts.flatMap partJson := by
  unfold buildContentParts
  rw [List.flatMap_assoc]
  exact List.flatMap_congr fun part hpart => partJson_eq (h part hpart)

theorem map_partOf {parts : List GeminiPart}
    (h : ∀ part ∈ parts, part.text = "" ∨ part.inlineData = none) :
    (parts.flatMap partJson).map partOf = parts.filterMap keptPart := by
  induction parts with
  | nil => rfl
  | cons part parts ih =>
      rw [List.flatMap_cons, List.map_append, partOf_partJson (h part List.mem_cons_self),
        ih fun p hp => h p (List.mem_cons_of_mem part hp)]
      cases hkept : keptPart part with
      | none => rw [List.filterMap_cons_none hkept]; rfl
      | some kept => rw [List.filterMap_cons_some hkept]; rfl

/-! ## Contents -/

theorem role_roundTrip {role : String} (h : role = "user" ∨ role = "model") :
    llmRoleToGeminiRole (geminiRoleToLlmRole role) = role := by
  rcases h with rfl | rfl <;> rfl

theorem role_isTurn {role : String} (h : role = "user" ∨ role = "model") :
    ¬ (geminiRoleToLlmRole role = "system" ∨ geminiRoleToLlmRole role = "developer") ∧
      geminiRoleToLlmRole role ≠ "tool" := by
  rcases h with rfl | rfl <;> decide

/-- A content as it is written, if a part of it is. -/
def writtenContent (content : GeminiContent) : List Json :=
  if (content.parts.flatMap partJson).isEmpty then []
  else [contentJson content.role (content.parts.flatMap partJson)]

theorem contentOf_writtenContent {content : GeminiContent}
    (h : ∀ part ∈ content.parts, part.text = "" ∨ part.inlineData = none) :
    (writtenContent content).map contentOf = (keptContent content).toList := by
  unfold writtenContent keptContent
  rw [← map_partOf h, List.isEmpty_map]
  by_cases hempty : (content.parts.flatMap partJson).isEmpty
  · rw [if_pos hempty, if_pos hempty]
    rfl
  · rw [if_neg hempty, if_neg hempty]
    rfl

section Turns

variable {parseText : String → Option Json}

/-- One content of the client adds what is written of it. -/
theorem writeMessage_content {content : GeminiContent} {message : ChatMessage}
    (hrole : content.role = "user" ∨ content.role = "model")
    (hmime : ∀ part ∈ content.parts, ∀ blob, part.inlineData = some blob →
      ∀ c ∈ blob.mimeType.toList, c ≠ ';' ∧ c ≠ ',')
    (h : contentMessage content = some message) (written : Written) :
    writeMessage parseText written message =
      { written with contents := written.contents ++ writtenContent content } := by
  unfold contentMessage at h
  cases hcontent : collapseParts (buildContentParts content) with
  | none => rw [hcontent] at h; cases h
  | some messageContent =>
      rw [hcontent] at h
      obtain rfl := Option.some.inj h
      have hparts : buildGeminiPartsFromMessage
          { role := geminiRoleToLlmRole content.role, content := some messageContent } =
            content.parts.flatMap partJson := by
        rw [← buildContentParts_json hmime, ← bodyParts_collapseParts, hcontent]
        rfl
      unfold writeMessage writtenContent
      rw [if_neg (role_isTurn hrole).1, if_neg (role_isTurn hrole).2]
      dsimp only
      rw [hparts, role_roundTrip hrole]
      by_cases hempty : (content.parts.flatMap partJson).isEmpty
      · rw [if_pos hempty, if_pos hempty, List.append_nil]
      · rw [if_neg hempty, if_neg hempty]

/-- A content without a message has nothing to be written. -/
theorem writtenContent_none {content : GeminiContent}
    (hmime : ∀ part ∈ content.parts, ∀ blob, part.inlineData = some blob →
      ∀ c ∈ blob.mimeType.toList, c ≠ ';' ∧ c ≠ ',')
    (h : contentMessage content = none) : writtenContent content = [] := by
  have hcollapse : collapseParts (buildContentParts content) = none := Option.map_eq_none_iff.mp h
  have hempty : content.parts.flatMap partJson = [] := by
    rw [← buildContentParts_json hmime, ← bodyParts_collapseParts, hcollapse]
    rfl
  unfold writtenContent
  rw [hempty]
  rfl

/-- All contents of the client, in their order. -/
theorem foldl_contents {contents : List GeminiContent}
    (hroles : ∀ content ∈ contents, content.role = "user" ∨ content.role = "model")
    (hmime : ∀ content ∈ contents, ∀ part ∈ content.parts, ∀ blob,
      part.inlineData = some blob → ∀ c ∈ blob.mimeType.toList, c ≠ ';' ∧ c ≠ ',')
    (written : Written) :
    (contents.filterMap contentMessage).foldl (writeMessage parseText) written =
      { written with contents := written.contents ++ contents.flatMap writtenContent } := by
  induction contents generalizing written with
  | nil => rw [List.flatMap_nil, List.append_nil]; rfl
  | cons content contents ih =>
      have hrole := hroles content List.mem_cons_self
      have hmimes := hmime content List.mem_cons_self
      have hrest := ih (fun c hc => hroles c (List.mem_cons_of_mem _ hc))
        (fun c hc => hmime c (List.mem_cons_of_mem _ hc))
      rw [List.flatMap_cons]
      cases hmessage : contentMessage content with
      | none =>
          rw [List.filterMap_cons_none hmessage, writtenContent_none hmimes hmessage]
          exact hrest written
      | some message =>
          rw [List.filterMap_cons_some hmessage, List.foldl_cons,
            writeMessage_content hrole hmimes hmessage, hrest, List.append_assoc]

end Turns

theorem map_contentOf {contents : List GeminiContent}
    (h : ∀ content ∈ contents, ∀ part ∈ content.parts,
      part.text = "" ∨ part.inlineData = none) :
    (contents.flatMap writtenContent).map contentOf = contents.filterMap keptContent := by
  induction contents with
  | nil => rfl
  | cons content contents ih =>
      rw [List.flatMap_cons, List.map_append,
        contentOf_writtenContent (h content List.mem_cons_self),
        ih fun c hc => h c (List.mem_cons_of_mem content hc)]
      cases hkept : keptContent content with
      | none => rw [List.filterMap_cons_none hkept]; rfl
      | some kept => rw [List.filterMap_cons_some hkept]; rfl

/-! ## Tools -/

/-- A text that is written only if it is not empty reads the same. -/
theorem text_roundTrip (value : Option String) :
    ((if value.getD "" ≠ "" then some (Json.string (value.getD "")) else none).bind asStr).getD "" =
      value.getD "" := by
  by_cases h : value.getD "" = ""
  · rw [if_neg (not_not_intro h), h]
    rfl
  · rw [if_pos h]
    rfl

def schemaOf (declaration : Json) : Option Json :=
  (nonNullField declaration "parameters").or (nonNullField declaration "parametersJsonSchema")

theorem nonNullField_isNull {value : Json} {name : String} {schema : Json}
    (h : nonNullField value name = some schema) : schema.isNull = false := by
  simpa using (Option.filter_eq_some_iff.mp h).2

theorem schemaOf_isNull {declaration schema : Json} (h : schemaOf declaration = some schema) :
    schema.isNull = false := by
  rcases Option.or_eq_some_iff.mp h with hold | ⟨-, hnew⟩
  · exact nonNullField_isNull hold
  · exact nonNullField_isNull hnew

theorem filter_schemaOf (declaration : Json) :
    ((schemaOf declaration).filter fun value => !value.isNull) = schemaOf declaration := by
  cases h : schemaOf declaration with
  | none => rfl
  | some schema => rw [Option.filter_some, schemaOf_isNull h]; rfl

/-- A function comes back with its name, its description and its schema. -/
theorem functionDeclaration_functionTool (declaration : Json) :
    declarationOf (functionDeclaration (functionTool declaration)) = declarationOf declaration := by
  have hget : ∀ name, (functionDeclaration (functionTool declaration)).get name =
      field (nonEmptyField "name" ((declaration.strField "name").getD "") ++
        nonEmptyField "description" ((declaration.strField "description").getD "") ++
        optionalField "parametersJsonSchema" (schemaOf declaration)) name := by
    intro name
    exact congrArg (fun schema => field (_ ++ optionalField "parametersJsonSchema" schema) name)
      (filter_schemaOf declaration)
  have hfield : ∀ name, (functionDeclaration (functionTool declaration)).get name = _ :=
    fun name => (hget name).trans (by
      rw [field_append, field_append, field_nonEmptyField, field_nonEmptyField,
        field_optionalField])
  have hname : ((functionDeclaration (functionTool declaration)).strField "name").getD "" =
      (declaration.strField "name").getD "" := by
    conv_lhs => unfold strField
    rw [hfield]
    simpa using text_roundTrip (declaration.strField "name")
  have hdescription :
      ((functionDeclaration (functionTool declaration)).strField "description").getD "" =
        (declaration.strField "description").getD "" := by
    conv_lhs => unfold strField
    rw [hfield]
    simpa using text_roundTrip (declaration.strField "description")
  have hschema : schemaOf (functionDeclaration (functionTool declaration)) =
      schemaOf declaration := by
    conv_lhs => unfold schemaOf nonNullField
    rw [hfield, hfield]
    simpa using filter_schemaOf declaration
  unfold declarationOf
  rw [hname, hdescription]
  exact congrArg (Declaration.mk _ _) hschema

/-- The native tool of each kind. -/
def nativeTools (tool : Json) : List UnifiedTool :=
  nativeTool tool "googleSearch" "google_search" ++
    nativeTool tool "codeExecution" "google_code_execution" ++
    nativeTool tool "urlContext" "google_url_context"

theorem parseGeminiTool_eq (tool : Json) :
    parseGeminiTool tool = (declarationsOf tool).map functionTool ++ nativeTools tool := by
  unfold parseGeminiTool nativeTools declarationsOf
  rw [List.append_assoc, List.append_assoc, List.append_assoc]

theorem filter_nativeTools (tool : Json) :
    ((nativeTools tool).filter fun tool => tool.toolType = "function") = [] := by
  unfold nativeTools nativeTool
  by_cases hsearch : (tool.get "googleSearch").isSome <;>
    by_cases hcode : (tool.get "codeExecution").isSome <;>
      by_cases hurl : (tool.get "urlContext").isSome <;> simp [hsearch, hcode, hurl]

theorem functions_parseGeminiTools (tools : List Json) :
    ((tools.flatMap parseGeminiTool).filter fun tool => tool.toolType = "function") =
      (tools.flatMap declarationsOf).map functionTool := by
  induction tools with
  | nil => rfl
  | cons tool tools ih =>
      have hfunctions : ((declarationsOf tool).map functionTool).filter
          (fun tool => tool.toolType = "function") = (declarationsOf tool).map functionTool := by
        rw [List.filter_eq_self]
        intro unified hmem
        obtain ⟨declaration, -, rfl⟩ := List.mem_map.mp hmem
        rfl
      rw [List.flatMap_cons, List.flatMap_cons, List.filter_append, ih, parseGeminiTool_eq,
        List.filter_append, hfunctions, filter_nativeTools, List.append_nil, List.map_append]

/-- The native tools that an entry names. -/
def nativesOfTool (tool : Json) : List String :=
  nativeNames.filter fun name => (tool.get name).isSome

theorem natives_functionTools (declarations : List Json) :
    (declarations.map functionTool).filterMap nativeEntry = [] := by
  rw [List.filterMap_eq_nil_iff]
  intro unified hmem
  obtain ⟨declaration, -, rfl⟩ := List.mem_map.mp hmem
  rfl

theorem natives_nativeTools (tool : Json) :
    ((nativeTools tool).filterMap nativeEntry).flatMap nativesOfTool = nativesOfTool tool := by
  unfold nativeTools nativeTool nativesOfTool nativeNames
  by_cases hsearch : (tool.get "googleSearch").isSome <;>
    by_cases hcode : (tool.get "codeExecution").isSome <;>
      by_cases hurl : (tool.get "urlContext").isSome <;>
        simp [hsearch, hcode, hurl, nativeEntry]

theorem natives_parseGeminiTools (tools : List Json) :
    ((tools.flatMap parseGeminiTool).filterMap nativeEntry).flatMap nativesOfTool =
      tools.flatMap nativesOfTool := by
  induction tools with
  | nil => rfl
  | cons tool tools ih =>
      rw [List.flatMap_cons, List.flatMap_cons, List.filterMap_append, List.flatMap_append, ih,
        parseGeminiTool_eq, List.filterMap_append, natives_functionTools, List.nil_append,
        natives_nativeTools]

/-- Native entries declare no functions. -/
theorem declarationsOf_nativeEntry {tool : UnifiedTool} {entry : Json}
    (h : nativeEntry tool = some entry) : declarationsOf entry = [] := by
  unfold nativeEntry at h
  split at h
  · cases h; rfl
  split at h
  · cases h; rfl
  split at h
  · cases h; rfl
  · cases h

theorem flatMap_declarationsOf (tools : List UnifiedTool) :
    (buildGeminiTools tools).flatMap declarationsOf =
      (tools.filter fun tool => tool.toolType = "function").map functionDeclaration := by
  have hnatives : (tools.filterMap nativeEntry).flatMap declarationsOf = [] := by
    rw [List.flatMap_eq_nil_iff]
    intro entry hmem
    obtain ⟨tool, -, hentry⟩ := List.mem_filterMap.mp hmem
    exact declarationsOf_nativeEntry hentry
  unfold buildGeminiTools
  rw [List.flatMap_append, hnatives, List.append_nil]
  cases (tools.filter fun tool => tool.toolType = "function").map functionDeclaration with
  | nil => rfl
  | cons declaration declarations => exact List.flatMap_singleton _ _

theorem flatMap_nativesOfTool (tools : List UnifiedTool) :
    (buildGeminiTools tools).flatMap nativesOfTool =
      (tools.filterMap nativeEntry).flatMap nativesOfTool := by
  unfold buildGeminiTools
  rw [List.flatMap_append]
  cases (tools.filter fun tool => tool.toolType = "function").map functionDeclaration with
  | nil => rfl
  | cons declaration declarations => rfl

/-! ## The calling mode -/

/-- The choice of one function, with its name if it has one. -/
theorem functionCallingConfig_named (name : String) :
    functionCallingConfig
        (.object [("type", .string "function"), ("function", .object [("name", .string name)])]) =
      .object ([("mode", .string "ANY")] ++ optionalField "allowedFunctionNames"
        (((some name).filter (· ≠ "")).map fun name => .array [.string name])) := rfl

/-- A known mode comes back, and with `ANY` the name. -/
theorem calling_roundTrip {config : Json} (hmode : modeOf config ∈ ["AUTO", "NONE", "ANY"])
    (hnames : (allowedNames config).length ≤ 1) :
    (modeOf (functionCallingConfig (toolChoiceOf config)),
      if modeOf (functionCallingConfig (toolChoiceOf config)) = "ANY" then
        (allowedNames (functionCallingConfig (toolChoiceOf config))).filter (· ≠ "") else []) =
      (modeOf config,
        if modeOf config = "ANY" then (allowedNames config).filter (· ≠ "") else []) := by
  simp only [List.mem_cons, List.not_mem_nil, or_false] at hmode
  unfold toolChoiceOf
  rcases hmode with hauto | hnone | hany
  · rw [hauto]
    rfl
  · rw [hnone]
    rfl
  · rw [hany]
    rcases hallowed : allowedNames config with _ | ⟨name, _ | ⟨second, rest⟩⟩
    · rfl
    · by_cases hempty : name = ""
      · rw [hempty]
        rfl
      · refine (congrArg (fun config => (modeOf config,
          if modeOf config = "ANY" then (allowedNames config).filter (· ≠ "") else []))
          (functionCallingConfig_named name)).trans ?_
        rw [Option.filter_some, if_pos (decide_eq_true hempty)]
        rfl
    · rw [hallowed] at hnames
      simp at hnames

/-! ## The body -/

section Body

variable (parseText : String → Option Json) (request : GeminiGenerateContentRequest)

/-- The unified chat of a request. -/
def chatOf : ChatRequest :=
  { messages := systemMessage request ++ request.contents.filterMap contentMessage
    tools := parseGeminiTools request.extra
    toolChoice := parseGeminiToolConfig request.extra }

/-- The body of a request, from what is written of it. -/
def bodyOf : ExtensionMap :=
  nonEmptyObject "systemInstruction"
      (nonEmptyList "parts" (nonEmptyText (extractTextFromContent request.systemInstruction))) ++
    [("contents", .array (request.contents.flatMap writtenContent))] ++
    nonEmptyList "tools" (buildGeminiTools (parseGeminiTools request.extra)) ++
    optionalField "toolConfig" ((parseGeminiToolConfig request.extra).map buildGeminiToolConfig)

variable {request}

/-- The system text first, then the contents. -/
theorem written_eq (hwell : WellFormed request) :
    (chatOf request).messages.foldl (writeMessage parseText) {} =
      { contents := request.contents.flatMap writtenContent
        systemParts := nonEmptyText (extractTextFromContent request.systemInstruction) } := by
  have hsystem : (systemMessage request).foldl (writeMessage parseText) {} =
      { systemParts := nonEmptyText (extractTextFromContent request.systemInstruction) } := by
    unfold systemMessage nonEmptyText
    by_cases htext : extractTextFromContent request.systemInstruction = ""
    · rw [if_pos htext, if_pos htext]
      rfl
    · rw [if_neg htext, if_neg htext, List.foldl_cons, List.foldl_nil]
      unfold writeMessage buildGeminiPartsFromMessage bodyParts nonEmptyText
      dsimp only
      rw [if_pos (Or.inl rfl), if_neg htext]
      rfl
  unfold chatOf
  dsimp only
  rw [List.foldl_append, hsystem, foldl_contents hwell.roles hwell.mimeTypes]
  rfl

/-- A content that is kept is written, so it was a message. -/
theorem contentMessage_of_kept (hwell : WellFormed request) {content : GeminiContent}
    (hmem : content ∈ request.contents) (h : keptContent content ≠ none) :
    contentMessage content ≠ none := by
  intro hnone
  have hkept := contentOf_writtenContent (hwell.kinds content hmem)
  rw [writtenContent_none (hwell.mimeTypes content hmem) hnone, List.map_nil] at hkept
  exact h (Option.toList_eq_nil_iff.mp hkept.symm)

theorem messages_ne_nil (hwell : WellFormed request)
    (hspoken : extractTextFromContent request.systemInstruction ≠ "" ∨
      request.contents.filterMap keptContent ≠ []) :
    (chatOf request).messages ≠ [] := by
  intro hnil
  obtain ⟨hsystem, hcontents⟩ := List.append_eq_nil_iff.mp hnil
  rcases hspoken with htext | hkept
  · unfold systemMessage at hsystem
    dsimp only at hsystem
    rw [if_neg htext] at hsystem
    cases hsystem
  · refine hkept (List.filterMap_eq_nil_iff.mpr fun content hmem => ?_)
    by_contra hsome
    exact contentMessage_of_kept hwell hmem hsome (List.filterMap_eq_nil_iff.mp hcontents content hmem)

theorem generationConfig_chatOf : buildGeminiGenerationConfig (chatOf request) = [] := rfl

theorem built (hwell : WellFormed request) {action : GeminiAction} (hmodel : action.model ≠ "")
    (hspoken : extractTextFromContent request.systemInstruction ≠ "" ∨
      request.contents.filterMap keptContent ≠ [])
    {unified : LlmRequest} (hpayload : unified.payload = .chat (chatOf request))
    (hunified : unified.model = some action.model) :
    buildGeminiOutboundBody parseText unified = .ok (bodyOf request) := by
  unfold buildGeminiOutboundBody
  rw [hpayload]
  dsimp only
  rw [hunified, Option.getD_some, if_neg hmodel,
    if_neg (by simpa using messages_ne_nil hwell hspoken), written_eq parseText hwell,
    generationConfig_chatOf]
  rfl

/-! ## What is read of the body -/

theorem field_nonEmptyObject (name : String) (fields : ExtensionMap) (key : String) :
    field (nonEmptyObject name fields) key =
      if key = name ∧ fields.isEmpty = false then some (.object fields) else none := by
  unfold nonEmptyObject
  cases fields <;> simp

theorem field_bodyOf (name : String) :
    field (bodyOf request) name =
      (((field (nonEmptyObject "systemInstruction" (nonEmptyList "parts"
          (nonEmptyText (extractTextFromContent request.systemInstruction)))) name).or
        (field [("contents", .array (request.contents.flatMap writtenContent))] name)).or
        (field (nonEmptyList "tools" (buildGeminiTools (parseGeminiTools request.extra))) name)).or
        (field (optionalField "toolConfig"
          ((parseGeminiToolConfig request.extra).map buildGeminiToolConfig)) name) := by
  unfold bodyOf
  rw [field_append, field_append, field_append]

theorem field_contents : field (bodyOf request) "contents" =
    some (.array (request.contents.flatMap writtenContent)) := by
  rw [field_bodyOf, field_nonEmptyObject, if_neg (by simp)]
  rfl

theorem field_extra_requestOf {body : ExtensionMap} {name : String}
    (h : name ∉ ["contents", "systemInstruction"]) :
    field (requestOf body).extra name = field body name := field_otherFields h body

theorem rawTools_requestOf :
    rawTools (requestOf (bodyOf request)).extra =
      buildGeminiTools (parseGeminiTools request.extra) := by
  have hconfig : field (optionalField "toolConfig"
      ((parseGeminiToolConfig request.extra).map buildGeminiToolConfig)) "tools" = none := by
    rw [field_optionalField, if_neg (by decide)]
  unfold rawTools
  rw [field_extra_requestOf (by decide), field_bodyOf, hconfig, field_nonEmptyObject,
    if_neg (by simp)]
  cases buildGeminiTools (parseGeminiTools request.extra) with
  | nil => rfl
  | cons tool tools => rfl

theorem callingConfig_requestOf :
    callingConfig (requestOf (bodyOf request)).extra =
      (callingConfig request.extra).map fun config => functionCallingConfig (toolChoiceOf config) := by
  conv_lhs => unfold callingConfig
  rw [field_extra_requestOf (by decide), field_bodyOf, field_nonEmptyObject, if_neg (by simp),
    field_nonEmptyList, if_neg (by simp), field_optionalField, if_pos rfl]
  unfold parseGeminiToolConfig
  cases callingConfig request.extra with
  | none => rfl
  | some config => rfl

theorem systemInstruction_requestOf :
    extractTextFromContent (requestOf (bodyOf request)).systemInstruction =
      extractTextFromContent request.systemInstruction := by
  have htools : field (nonEmptyList "tools" (buildGeminiTools (parseGeminiTools request.extra)))
      "systemInstruction" = none := by
    rw [field_nonEmptyList, if_neg (by simp)]
  have hconfig : field (optionalField "toolConfig"
      ((parseGeminiToolConfig request.extra).map buildGeminiToolConfig)) "systemInstruction" =
        none := by
    rw [field_optionalField, if_neg (by decide)]
  unfold requestOf
  dsimp only
  rw [field_bodyOf, htools, hconfig, Option.or_none, Option.or_none]
  generalize extractTextFromContent request.systemInstruction = text
  by_cases htext : text = ""
  · rw [htext]
    rfl
  · -- one part is written, and its text is the whole text
    have hread : [partOf (geminiTextPart text)].filterMap
        (fun part => if part.text = "" then none else some part.text) = [text] := by
      have htextOf : (partOf (geminiTextPart text)).text = text := rfl
      rw [List.filterMap_cons, htextOf, if_neg htext]
      rfl
    unfold nonEmptyText
    rw [if_neg htext]
    exact congrArg ("\n".intercalate) hread

theorem survives (hwell : WellFormed request) : Survives request (requestOf (bodyOf request)) where
  contents := by
    unfold requestOf
    dsimp only
    rw [field_contents]
    exact map_contentOf hwell.kinds
  system := systemInstruction_requestOf
  functions := by
    unfold functionsOf
    rw [rawTools_requestOf, flatMap_declarationsOf, parseGeminiTools, functions_parseGeminiTools,
      List.map_map, List.map_map]
    exact List.map_congr_left fun declaration _ => functionDeclaration_functionTool declaration
  natives := by
    have hnatives : ∀ extra, nativesOf extra = (rawTools extra).flatMap nativesOfTool :=
      fun _ => rfl
    rw [hnatives, hnatives, rawTools_requestOf, flatMap_nativesOfTool, parseGeminiTools,
      natives_parseGeminiTools]
  calling := by
    unfold callingOf
    rw [callingConfig_requestOf, Option.map_map]
    cases hconfig : callingConfig request.extra with
    | none => rfl
    | some config =>
        have hmode := hwell.mode config hconfig
        exact congrArg some (calling_roundTrip hmode.1 hmode.2)
  config := by
    rw [field_extra_requestOf (by decide), field_bodyOf, field_nonEmptyObject, if_neg (by simp),
      field_nonEmptyList, if_neg (by simp), field_optionalField, if_neg (by decide)]
    rfl

end Body

/-! ## There and back -/

/-- A request with a text for the model, or a content to be kept, is built again. -/
theorem gemini_request_survives (parseText : String → Option Json)
    (request : GeminiGenerateContentRequest) (action : GeminiAction)
    (hwell : WellFormed request) (hmodel : action.model ≠ "") (hcontents : request.contents ≠ [])
    (hspoken : extractTextFromContent request.systemInstruction ≠ "" ∨
      request.contents.filterMap keptContent ≠ []) :
    ∃ unified body, parseGeminiContentsToLlmRequest request action = .ok unified ∧
      buildGeminiOutboundBody parseText unified = .ok body ∧
      Survives request (requestOf body) := by
  unfold parseGeminiContentsToLlmRequest
  rw [if_neg (by simpa using hcontents)]
  exact ⟨_, bodyOf request, rfl, built parseText hwell hmodel hspoken rfl rfl, survives hwell⟩

def textPartOf (text : String) : GeminiPart := { text := text }

/-- A text, a picture, a function with a schema, a search and one allowed name. -/
def pictureRequest : GeminiGenerateContentRequest :=
  { contents := [
      { parts := [textPartOf "what is this?", { inlineData := some ⟨"image/png", "aGk="⟩ }]
        role := "user" }]
    systemInstruction := some { parts := [textPartOf "be brief"] }
    extra := [
      ("tools", .array [
        .object [("functionDeclarations", .array [
          .object [("name", .string "label"), ("parameters", .object [])]])],
        .object [("googleSearch", .object [])]]),
      ("toolConfig", .object [("functionCallingConfig", .object [
        ("mode", .string "ANY"), ("allowedFunctionNames", .array [.string "label"])])])] }

theorem pictureRequest_wellFormed : WellFormed pictureRequest where
  roles := by
    intro content hmem
    obtain rfl := List.mem_singleton.mp hmem
    exact Or.inl rfl
  kinds := by
    intro content hmem part hpart
    obtain rfl := List.mem_singleton.mp hmem
    rcases List.mem_cons.mp hpart with rfl | hpart
    · exact Or.inr rfl
    · obtain rfl := List.mem_singleton.mp hpart
      exact Or.inl rfl
  mimeTypes := by
    intro content hmem part hpart blob hblob
    obtain rfl := List.mem_singleton.mp hmem
    rcases List.mem_cons.mp hpart with rfl | hpart
    · cases hblob
    · obtain rfl := List.mem_singleton.mp hpart
      obtain rfl := Option.some.inj hblob
      simp
  mode := by
    intro config hconfig
    obtain rfl := Option.some.inj hconfig
    exact ⟨by decide, by decide⟩

theorem gemini_request_survives_sample :
    ∃ unified body,
      parseGeminiContentsToLlmRequest pictureRequest ⟨"gemini-2.5-flash", false⟩ = .ok unified ∧
      buildGeminiOutboundBody (fun _ => none) unified = .ok body ∧
      Survives pictureRequest (requestOf body) :=
  gemini_request_survives (fun _ => none) pictureRequest ⟨"gemini-2.5-flash", false⟩
    pictureRequest_wellFormed (by decide) (by simp [pictureRequest]) (Or.inl (by decide))

/-- The model has called a function, and the client bounds the answer. -/
def callingRequest : GeminiGenerateContentRequest :=
  { contents := [
      { parts := [textPartOf "label it"], role := "user" },
      { parts := [{ extra := [("functionCall", .object [("name", .string "label")])] }]
        role := "model" }]
    extra := [("generationConfig", .object [("maxOutputTokens", .int 5)])] }

/-- The call and the settings stay behind. -/
theorem call_and_settings_left_out :
    ∃ unified body,
      parseGeminiContentsToLlmRequest callingRequest ⟨"gemini-2.5-flash", false⟩ = .ok unified ∧
      buildGeminiOutboundBody (fun _ => none) unified = .ok body ∧
      (requestOf body).contents ≠ callingRequest.contents ∧
      field (requestOf body).extra "generationConfig" ≠
        field callingRequest.extra "generationConfig" := by
  refine ⟨_, _, rfl, rfl, ?_, ?_⟩
  · intro hsame
    exact absurd (congrArg List.length hsame) (by decide)
  · intro hsame
    cases hsame

end Conduit.Transformers.Gemini
