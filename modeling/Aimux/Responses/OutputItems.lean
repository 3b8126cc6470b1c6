import Aimux.Provider.StreamContext

/-! # Output items of the Responses API

What `responses_language_model.rs` makes of an output item, in a finished response and in a stream alike:
metadata, sources of annotations, and the calls and results of provider tools.
-/

namespace Aimux.Responses

open Aimux.Core Aimux.Provider

/-- `provider_namespace` -/
def providerNamespace (providerKey : String) (object : List (String × Json)) : ProviderMetadata :=
  [(providerKey, .object object)]

def jsonNat (count : Nat) : Json := .number (.int count)

/-! ## Metadata -/

def toolMetadata (item : Json) : List (String × Json) :=
  let caller (value : Json) : Json :=
    if value.getStr "type" = some "program" then
      .object [("type", .string "program"), ("callerId", value.member "caller_id")]
    else value
  [("itemId", item.member "id")] ++
    (item.filled "async").toList.map (("async", ·)) ++ (item.filled "namespace").toList.map (("namespace", ·)) ++
    (item.filled "caller").toList.map fun value => ("caller", caller value)

/-- The fields that are kept of an annotation of a type that is known. -/
def annotationKeys : Option String → Option (List String)
  | some "url_citation" => some ["start_index", "end_index", "url", "title"]
  | some "file_citation" => some ["file_id", "filename", "index"]
  | some "container_file_citation" => some ["container_id", "file_id", "filename", "start_index", "end_index"]
  | some "file_path" => some ["file_id", "index"]
  | _ => none

/-- The fields with these keys, in their order. -/
def pick (value : Json) (keys : List String) : List (String × Json) :=
  keys.filterMap fun key => (value.get key).map ((key, ·))

def annotationFields (note : Json) : Json :=
  match annotationKeys (note.getStr "type") with
  | some keys => .object (("type", note.member "type") :: pick note keys)
  | none => note

def textMetadata (item : Json) (annotations : Option (List Json)) : List (String × Json) :=
  [("itemId", item.member "id")] ++ (item.filled "phase").toList.map (("phase", ·)) ++
    (annotations.filter (· ≠ [])).toList.map fun annotations =>
      ("annotations", Json.array (annotations.map annotationFields))

def reasoningStreamMetadata (itemId : String) (encryptedContent : Option String) : List (String × Json) :=
  [("itemId", .string itemId), ("reasoningEncryptedContent", (encryptedContent.map Json.string).getD .null)]

def logprobsFields (logprobs : Json) : Json :=
  let token (entry : Json) : List (String × Json) :=
    [("token", entry.member "token"), ("logprob", entry.member "logprob")]
  match logprobs with
  | .array entries => .array (entries.map fun entry =>
      .object (token entry ++ [("top_logprobs", match entry.member "top_logprobs" with
        | .array top => .array (top.map fun entry => .object (token entry))
        | other => other)]))
  | other => other

/-- The log probabilities were asked for. -/
def asksForLogprobs (requestBody : Json) : Bool := (requestBody.getU64 "top_logprobs").any (0 < ·)

/-! ## Sources -/

def invalidAnnotation (field : String) : AiMuxError :=
  .invalidResponseData ("Invalid Responses annotation field: " ++ field) none

def annotationString (note : Json) (field : String) : Except AiMuxError String :=
  match note.getStr field with
  | some text => .ok text
  | none => .error <| invalidAnnotation field

def annotationNumber (note : Json) (field : String) : Except AiMuxError Json :=
  match (note.get field).filter Json.isNumber with
  | some number => .ok number
  | none => .error <| invalidAnnotation field

/-- The source of an annotation, with an id that was generated for it. -/
def annotationSource (providerKey id : String) (note : Json) : Except AiMuxError Source := do
  let type ← annotationString note "type"
  if type = "url_citation" then
    let _ ← annotationNumber note "start_index"
    let _ ← annotationNumber note "end_index"
    let url ← annotationString note "url"
    let title ← annotationString note "title"
    return .url id url (some title) none
  let fileId ← annotationString note "file_id"
  let document (mediaType filename : String) (metadata : List (String × Json)) : Source :=
    .document id mediaType filename (some filename) (some (providerNamespace providerKey
      ([("type", Json.string type), ("fileId", .string fileId)] ++ metadata)))
  if type = "file_path" then
    let index ← annotationNumber note "index"
    return document "application/octet-stream" fileId [("index", index)]
  else if type = "file_citation" then
    let filename ← annotationString note "filename"
    let index ← annotationNumber note "index"
    return document "text/plain" filename [("index", index)]
  else if type = "container_file_citation" then
    let _ ← annotationNumber note "start_index"
    let _ ← annotationNumber note "end_index"
    let filename ← annotationString note "filename"
    let containerId ← annotationString note "container_id"
    return document "text/plain" filename [("containerId", .string containerId)]
  else throw <| invalidAnnotation "type"

/-! ## Provider tools -/

structure ResponsesToolNames where
  /-- From the provider's names to the names of the tools that were passed. -/
  toolNameMapping : List (String × String) := []
  webSearchToolName : Option String := none

def ResponsesToolNames.toCustomToolName (names : ResponsesToolNames) (providerToolName : String) : String :=
  let name := if providerToolName = "web_search" then names.webSearchToolName.getD "web_search" else providerToolName
  (names.toolNameMapping.lookup name).getD name

/-- The call id of an item, else its own. -/
def callOrItemId (item : Json) : String := (asStr ((item.filled "call_id").getD (item.member "id"))).getD ""

/-- What stands between the quotes in the JSON text of a string. -/
def escapedDelta (value : String) : String := String.ofList (escape value.toList)

def applyPatchOperation (operation : Json) : Json :=
  let keep (keys : List String) : Json := .object (("type", operation.member "type") :: pick operation keys)
  match operation.getStr "type" with
  | some "create_file" | some "update_file" => keep ["path", "diff"]
  | some "delete_file" => keep ["path"]
  | _ => operation

/-- The provider's name of the tool of an item that starts. -/
def startedTool (item : Json) : Option String :=
  match item.strOrEmpty "type" with
  | "web_search_call" => some "web_search"
  | "file_search_call" => some "file_search"
  | "image_generation_call" => some "image_generation"
  | "code_interpreter_call" => some "code_interpreter"
  | "computer_call" => some "computer"
  | "apply_patch_call" => some "apply_patch"
  | "tool_search_call" => if item.getStr "execution" = some "server" then some "tool_search" else none
  | _ => none

section

variable (context : StreamContext) (names : ResponsesToolNames)

/-- The parts of a provider tool's item that starts. -/
def providerToolStart (item : Json) : List StreamPart :=
  match startedTool item with
  | none => []
  | some canonical =>
    let kind := item.strOrEmpty "type"
    let name := names.toCustomToolName canonical
    let id := callOrItemId item
    let hosted := if kind ∈ ["web_search_call", "file_search_call", "image_generation_call", "code_interpreter_call",
      "tool_search_call"] then some true else none
    let call : StreamPart :=
      .toolCall { toolCallId := id, toolName := name, input := "\x7b\x7d", providerExecuted := hosted }
    if kind = "file_search_call" ∨ kind = "image_generation_call" then [call]
    else .toolInputStart id name hosted none none none ::
      if kind = "web_search_call" then [.toolInputEnd id none, call]
      else if kind = "code_interpreter_call" then
        [.toolInputDelta id ("\x7b\"containerId\":" ++ context.toString (item.member "container_id") ++
          ",\"code\":\"") none]
      else if kind = "apply_patch_call" then
        let operation := applyPatchOperation (item.member "operation")
        if operation.getStr "type" = some "delete_file" then
          [.toolInputDelta id (context.toString (.object [("callId", .string id), ("operation", operation)])) none,
            .toolInputEnd id none]
        else
          [.toolInputDelta id ("\x7b\"callId\":" ++ context.toString (.string id) ++ ",\"operation\":\x7b\"type\":" ++
            context.toString (operation.member "type") ++ ",\"path\":" ++
            context.toString (operation.member "path") ++ ",\"diff\":\"") none]
      else []

/-- Whether a request has a shell tool in an environment that is not local. -/
def hostedShell (requestBody : Json) : Bool :=
  (asArray (requestBody.member "tools")).any fun tools => tools.any fun tool =>
    tool.getStr "type" = some "shell" &&
      (tool.get "environment").any fun environment => environment.getStr "type" ≠ some "local"

def webSearchOutput (action : Json) : Json :=
  match action.getStr "type" with
  | some "search" =>
    let searched := ["query", "queries"].filterMap fun key => (action.filled key).map ((key, ·))
    .object ([("action", .object (("type", .string "search") :: searched))] ++
      (action.filled "sources").toList.map (("sources", ·)))
  | some "open_page" => .object [("action", .object (("type", .string "openPage") :: pick action ["url"]))]
  | some "find_in_page" => .object [("action", .object (("type", .string "findInPage") :: pick action ["url", "pattern"]))]
  | _ => .object []

def localShellAction (action : Json) : Json :=
  if action.isObject then .object (pick action ["type", "command", "timeout_ms", "timeoutMs", "user",
    "working_directory", "workingDirectory", "env"])
  else action

/-- The fields of a computer action that are kept, with their new names. -/
def computerFields : Option String → Option (List (String × String))
  | some "click" => some [("button", "button"), ("x", "x"), ("y", "y"), ("keys", "keys")]
  | some "double_click" | some "move" => some [("x", "x"), ("y", "y"), ("keys", "keys")]
  | some "drag" => some [("path", "path"), ("keys", "keys")]
  | some "keypress" => some [("keys", "keys")]
  | some "scroll" => some [("x", "x"), ("y", "y"), ("scroll_x", "scrollX"), ("scroll_y", "scrollY"), ("keys", "keys")]
  | some "type" => some [("text", "text")]
  | some "screenshot" | some "wait" => some []
  | _ => none

def computerAction (action : Json) : Json :=
  match computerFields (action.getStr "type") with
  | some fields => .object (("type", action.member "type") ::
      fields.filterMap fun field => (action.filled field.1).map ((field.2, ·)))
  | none => action

def computerInput (part : Json) : Json :=
  let actions := (asArray (part.member "actions")).getD (part.filled "action").toList
  let checks := ((asArray (part.member "pending_safety_checks")).getD []).map fun check =>
    Json.object (("id", check.member "id") ::
      ["code", "message"].filterMap fun key => (check.filled key).map ((key, ·)))
  .object [("actions", .array (actions.map computerAction)), ("pendingSafetyChecks", .array checks),
    ("status", part.member "status")]

def fileSearchOutput (part : Json) : Json :=
  let results := (asArray (part.member "results")).map fun results => Json.array (results.map fun value =>
    .object [("attributes", value.member "attributes"), ("fileId", value.member "file_id"),
      ("filename", value.member "filename"), ("score", value.member "score"), ("text", value.member "text")])
  .object [("queries", part.member "queries"), ("results", results.getD .null)]

def shellOutput (part : Json) : Json :=
  let outcome (item : Json) : Json :=
    if (item.member "outcome").getStr "type" = some "exit" then
      .object [("type", .string "exit"), ("exitCode", (item.member "outcome").member "exit_code")]
    else .object [("type", .string "timeout")]
  let items := (asArray (part.member "output")).map fun items => Json.array (items.map fun item =>
    .object [("stdout", item.member "stdout"), ("stderr", item.member "stderr"), ("outcome", outcome item)])
  .object [("output", items.getD .null)]

def mcpOutput (part : Json) : Json :=
  .object ([("type", .string "call"), ("serverLabel", part.member "server_label"), ("name", part.member "name"),
    ("arguments", part.member "arguments")] ++
      ["output", "error"].filterMap fun key => (part.filled key).map ((key, ·)))

def compactionKind : NamespacedKind := ⟨"openai.compaction", by decide⟩

/-- The calls and the results of a provider tool's item. The id is what is generated for an approval request. -/
def providerToolContent (part : Json) (providerKey : String) (shellProviderExecuted : Bool)
    (mcpToolCallId : Option String) (generatedId : String) : List GenerateContent :=
  let itemId := part.strOrEmpty "id"
  let callId := (part.getStr "call_id").getD itemId
  let metadata := some (providerNamespace providerKey [("itemId", .string itemId)])
  let name := names.toCustomToolName
  let call (id toolName : String) (input : Json) (executed : Option Bool) (metadata : Option ProviderMetadata) :
      GenerateContent :=
    .toolCall {
      toolCallId := id
      toolName := toolName
      input := context.toString input
      providerExecuted := executed
      providerMetadata := metadata }
  let result (id toolName : String) (value : Json) (metadata : Option ProviderMetadata) : GenerateContent :=
    .toolResult { toolCallId := id, toolName := toolName, result := value, providerMetadata := metadata }
  let pair (canonical : String) (input output : Json) : List GenerateContent :=
    [call itemId (name canonical) input (some true) none, result itemId (name canonical) output none]
  let mcpName := "mcp." ++ part.strOrEmpty "name"
  let mcpCall (id : String) : GenerateContent :=
    .toolCall {
      toolCallId := id
      toolName := mcpName
      input := part.strOrEmpty "arguments"
      providerExecuted := some true
      dynamic := some true }
  match part.strOrEmpty "type" with
  | "image_generation_call" => pair "image_generation" (.object []) (.object [("result", part.member "result")])
  | "web_search_call" => pair "web_search" (.object []) (webSearchOutput (part.member "action"))
  | "file_search_call" => pair "file_search" (.object []) (fileSearchOutput part)
  | "code_interpreter_call" => pair "code_interpreter"
      (.object [("code", part.member "code"), ("containerId", part.member "container_id")])
      (.object [("outputs", part.member "outputs")])
  | "computer_call" =>
    if (part.member "call_id").isNull then
      [.toolCall { toolCallId := itemId, toolName := name "computer_use", input := "", providerExecuted := some true },
        result itemId (name "computer_use")
          (.object [("type", .string "computer_use_tool_result"), ("status", part.member "status")]) none]
    else [call callId (name "computer") (computerInput part) none metadata]
  | "local_shell_call" =>
    [call callId (name "local_shell") (.object [("action", localShellAction (part.member "action"))]) none metadata]
  | "shell_call" => [call callId (name "shell")
      (.object [("action", .object [("commands", (part.member "action").member "commands")])])
      (if shellProviderExecuted then some true else none) metadata]
  | "shell_call_output" => [result callId (name "shell") (shellOutput part) none]
  | "apply_patch_call" => [call callId (name "apply_patch")
      (.object [("callId", part.member "call_id"), ("operation", applyPatchOperation (part.member "operation"))]) none
      metadata]
  | "program" => [call callId (name "programmatic_tool_calling")
      (.object [("code", part.member "code"), ("fingerprint", part.member "fingerprint")]) (some true) metadata]
  | "program_output" => [result callId (name "programmatic_tool_calling")
      (.object [("result", part.member "result"), ("status", part.member "status")]) metadata]
  | "tool_search_call" => [call callId (name "tool_search") (.object (pick part ["arguments", "call_id"]))
      (if part.getStr "execution" = some "server" then some true else none) metadata]
  | "tool_search_output" => [result callId (name "tool_search") (.object [("tools", part.member "tools")]) metadata]
  | "compaction" => [.custom compactionKind (some (providerNamespace providerKey [("type", .string "compaction"),
      ("itemId", part.member "id"), ("encryptedContent", part.member "encrypted_content")]))]
  | "mcp_approval_request" => [mcpCall generatedId, .toolApprovalRequest {
      approvalId := (part.getStr "approval_request_id").getD itemId
      toolCallId := generatedId }]
  | "mcp_call" => [mcpCall (mcpToolCallId.getD itemId),
      result (mcpToolCallId.getD itemId) mcpName (mcpOutput part) metadata]
  | _ => []

end

/-- The ids of hosted tool searches, and the item with the id it is paired with. -/
def pairToolSearchId (item : Json) (hostedIds : List Json) : Json × List Json :=
  match item.strOrEmpty "type" with
  | "tool_search_call" =>
    if item.getStr "execution" = some "server" then
      (item, hostedIds ++ [(item.filled "call_id").getD (item.member "id")])
    else (item, hostedIds)
  | "tool_search_output" =>
    if (item.member "call_id").isNull then
      match hostedIds with
      | id :: rest => (item.set "call_id" id, rest)
      | [] => (item, [])
    else (item, hostedIds)
  | _ => (item, hostedIds)

end Aimux.Responses
