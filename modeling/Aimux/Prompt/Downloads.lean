import Aimux.Prompt.ToolResults

/-! # Files given by URL

`download_assets` of `language_model_message.rs`, with the default download function of `download.rs`. The
downloads of a prompt are planned part by part and kept by URL.
-/

namespace Aimux.Prompt

open Aimux.Core Aimux.Lib

/-! ## Supported URLs -/

/-- What the standard library and the regex crate do. -/
structure TextMatching (Pattern : Type) where
  /-- `str::to_lowercase` -/
  toLowercase : String → String
  isMatch : Pattern → String → Bool

/-- The URL patterns of a media type. -/
abbrev SupportedUrls (Pattern : Type) := List (String × List Pattern)

/-- Both in lower case. -/
def coversMediaType (key mediaType : String) : Bool :=
  let pattern := if key = "*" ∨ key = "*/*" then [] else key.toList.erase '*'
  if pattern = [] then true
  else if '/' ∉ mediaType.toList then mediaType.toList ++ ['/'] = pattern
  else if pattern.getLast? = some '/' then pattern.isPrefixOf mediaType.toList
  else mediaType.toList = pattern

def isSupported {Pattern : Type} (matching : TextMatching Pattern) (supported : SupportedUrls Pattern)
    (url mediaType : String) : Bool :=
  let covering := supported.filter fun entry =>
    coversMediaType (matching.toLowercase entry.1) (matching.toLowercase mediaType)
  (covering.flatMap (·.2)).any fun pattern => matching.isMatch pattern (matching.toLowercase url)

/-! ## Planned downloads -/

structure PlannedDownload where
  url : String
  isUrlSupportedByModel : Bool

abbrev DownloadFunction := List PlannedDownload → Except AiMuxError (List (Option DownloadedFile))

/-- `DownloadFunction::download` -/
def callDownload (download : DownloadFunction) (downloads : List PlannedDownload) :
    Except AiMuxError (List (Option DownloadedFile)) := do
  let files ← download downloads
  if files.length ≠ downloads.length then
    .error (.invalidArgument ("the download function returned " ++ toString files.length ++ " results for " ++
      toString downloads.length ++ " URLs") none)
  else .ok files

/-- `download place url` is what the download of the URL at this place of the plan yields. -/
def downloadOne (download : Nat → String → Except AiMuxError DownloadedFile) (place : Nat)
    (planned : PlannedDownload) : Except AiMuxError (Option DownloadedFile) :=
  if planned.isUrlSupportedByModel then .ok none else (download place planned.url).map some

/-- Of several errors the source returns the one that comes first in time. -/
def downloadAll (download : Nat → String → Except AiMuxError DownloadedFile) : Nat → DownloadFunction
  | _, [] => .ok []
  | place, planned :: rest => do
    let file ← downloadOne download place planned
    let files ← downloadAll download (place + 1) rest
    .ok (file :: files)

def createDefaultDownloadFunction (download : Nat → String → Except AiMuxError DownloadedFile) : DownloadFunction :=
  downloadAll download 0

def isDataUrl (url : String) : Bool := asciiLower (String.ofList (url.toList.take 5)) = "data:"

/-- The URL and the media type of a file item. -/
def itemUrl : User.ToolResultContentPart → Option (String × String)
  | .file (.url url _) mediaType _ _ => some (url, mediaType)
  | _ => none

def outputUrls : User.ToolResultOutput → List (String × String)
  | .content value => value.filterMap itemUrl
  | _ => []

section

variable {Url : Type} (crate : UrlCrate Url)

/-- The URL and the media type of a file part that stays a URL. -/
def userUrl : User.UserContentPart → Option (String × String)
  | .file data mediaType _ _ => match convertFilePartData crate data with
    | .ok (.url url _, dataUrlMediaType) => some (url, dataUrlMediaType.getD mediaType)
    | _ => none
  | _ => none

/-- The calls of `plan` for a message. -/
def messageUrls : User.ModelMessage → List (String × String)
  | .user (.parts parts) _ => parts.filterMap (userUrl crate)
  | .tool content _ => content.flatMap fun
    | .toolResult result => outputUrls result.output
    | .toolApprovalResponse .. => []
  | .assistant (.parts parts) _ => parts.flatMap fun
    | .toolResult result => outputUrls result.output
    | _ => []
  | _ => []

def promptUrls (messages : List User.ModelMessage) : List (String × String) := messages.flatMap (messageUrls crate)

variable {Pattern : Type} (matching : TextMatching Pattern) (supported : SupportedUrls Pattern)

def plan (url mediaType : String) : Option PlannedDownload :=
  if isDataUrl url then none
  else some { url, isUrlSupportedByModel := isSupported matching supported url mediaType }

/-- One file of the plan, kept under its URL. -/
def keepFile (assets : DownloadedAssets) (entry : PlannedDownload × Option DownloadedFile) : DownloadedAssets :=
  match entry.2 with
  | some file => Function.update assets entry.1.url (some file)
  | none => assets

def downloadAssets (download : DownloadFunction) (messages : List User.ModelMessage) :
    Except AiMuxError DownloadedAssets := do
  let planned := (promptUrls crate messages).filterMap fun entry => plan matching supported entry.1 entry.2
  let files ← callDownload download planned
  .ok ((planned.zip files).foldl keepFile fun _ => none)

end

/-! ## What is downloaded -/

variable {download : Nat → String → Except AiMuxError DownloadedFile}

theorem downloadAll_ok {place : Nat} {planned : List PlannedDownload} {files : List (Option DownloadedFile)}
    (h : downloadAll download place planned = .ok files) :
    List.Forall₂ (fun planned file => file.isSome = !planned.isUrlSupportedByModel) planned files := by
  induction planned generalizing place files with
  | nil =>
    cases h
    exact .nil
  | cons first planned ih =>
    obtain ⟨file, hFile, h⟩ := bind_eq_ok.mp h
    obtain ⟨others, hOthers, h⟩ := bind_eq_ok.mp h
    cases h
    refine .cons ?_ (ih hOthers)
    rw [downloadOne] at hFile
    split at hFile
    · rename_i hSupported
      cases hFile
      simp [hSupported]
    · rename_i hUnsupported
      obtain ⟨found, -, rfl⟩ := map_eq_ok.mp hFile
      simp [hUnsupported]

theorem keepFiles_isSome {planned : List PlannedDownload} {files : List (Option DownloadedFile)}
    (h : List.Forall₂ (fun planned file => file.isSome = !planned.isUrlSupportedByModel) planned files)
    (assets : DownloadedAssets) (url : String) :
    ((planned.zip files).foldl keepFile assets url).isSome ↔
      (assets url).isSome ∨ { url, isUrlSupportedByModel := false } ∈ planned := by
  induction h generalizing assets with
  | nil => simp
  | @cons first file planned files hFile _ ih =>
    rw [List.zip_cons_cons, List.foldl_cons, ih, List.mem_cons, PlannedDownload.mk.injEq, keepFile]
    cases file with
    | none =>
      have hSupported : first.isUrlSupportedByModel = true := by simpa using hFile
      simp [hSupported]
    | some file =>
      have hUnsupported : first.isUrlSupportedByModel = false := by simpa using hFile
      by_cases hUrl : url = first.url
      · simp [hUrl, hUnsupported]
      · simp [hUrl, Function.update_of_ne]

section

variable {Url : Type} {crate : UrlCrate Url} {Pattern : Type} {matching : TextMatching Pattern}
  {supported : SupportedUrls Pattern}

/-- Some part of the prompt has the URL with a media type for which the model does not fetch it. -/
def SomeUnsupported (crate : UrlCrate Url) (matching : TextMatching Pattern) (supported : SupportedUrls Pattern)
    (messages : List User.ModelMessage) (url : String) : Prop :=
  isDataUrl url = false ∧
    ∃ mediaType, (url, mediaType) ∈ promptUrls crate messages ∧ isSupported matching supported url mediaType = false

theorem mem_plan (messages : List User.ModelMessage) (url : String) :
    { url, isUrlSupportedByModel := false } ∈
        ((promptUrls crate messages).filterMap fun entry => plan matching supported entry.1 entry.2) ↔
      SomeUnsupported crate matching supported messages url := by
  rw [List.mem_filterMap]
  constructor
  · rintro ⟨⟨given, mediaType⟩, hMem, hPlan⟩
    rw [plan] at hPlan
    split at hPlan
    · cases hPlan
    · rename_i hData
      rw [Option.some.injEq, PlannedDownload.mk.injEq] at hPlan
      obtain ⟨rfl, hUnsupported⟩ := hPlan
      exact ⟨Bool.eq_false_iff.mpr hData, mediaType, hMem, hUnsupported⟩
  · rintro ⟨hData, mediaType, hMem, hUnsupported⟩
    exact ⟨(url, mediaType), hMem, by rw [plan, hData, if_neg Bool.false_ne_true, hUnsupported]⟩

theorem downloadAssets_isSome {messages : List User.ModelMessage} {assets : DownloadedAssets}
    (h : downloadAssets crate matching supported (createDefaultDownloadFunction download) messages = .ok assets)
    (url : String) : (assets url).isSome ↔ SomeUnsupported crate matching supported messages url := by
  obtain ⟨files, hFiles, h⟩ := bind_eq_ok.mp h
  cases h
  obtain ⟨answered, hAnswered, hFiles⟩ := bind_eq_ok.mp hFiles
  split at hFiles
  · cases hFiles
  · cases hFiles
    rw [keepFiles_isSome (downloadAll_ok hAnswered), mem_plan]
    simp

end

/-! ## What is sent -/

/-- A file of the caller, by how it is given. -/
inductive GivenFile where
  | byUrl (url mediaType : String)
  | deprecatedUrl
  | other

def givenFile : Option (String × String) → GivenFile
  | some (url, mediaType) => .byUrl url mediaType
  | none => .other

def itemFile : User.ToolResultContentPart → Option GivenFile
  | .text .. | .custom .. => none
  | .fileUrl .. | .imageUrl .. => some .deprecatedUrl
  | item => some (givenFile (itemUrl item))

def outputFiles : User.ToolResultOutput → List GivenFile
  | .content value => value.filterMap itemFile
  | _ => []

def userFile {Url : Type} (crate : UrlCrate Url) : User.UserContentPart → Option GivenFile
  | .text .. => none
  | part => some (givenFile (userUrl crate part))

/-- The files of the user and of tool results, in order. -/
def givenFiles {Url : Type} (crate : UrlCrate Url) : User.ModelMessage → List GivenFile
  | .user (.parts parts) _ => parts.filterMap (userFile crate)
  | message => (givenResults message).flatMap fun result => outputFiles result.output

def UserPart.sentFile : UserPart → Option FilePart
  | .text _ => none
  | .file part => some part

def ToolResultContent.sentFile : ToolResultContent → Option FilePart
  | .file part => some part
  | .text _ | .custom _ => none

def sentOutputFiles : ToolResultOutput → List FilePart
  | .content value _ => value.filterMap ToolResultContent.sentFile
  | _ => []

def sentFiles : LanguageModelMessage → List FilePart
  | .user content _ => content.filterMap UserPart.sentFile
  | message => (sentResults message).flatMap fun result => sentOutputFiles result.output

/-- A file given by URL is sent inline for the URLs in question, and with its URL for all others. -/
def SentAs (inline : String → Prop) (given : GivenFile) (sent : FilePart) : Prop :=
  match given with
  | .byUrl url _ => (inline url ∧ ∃ bytes, sent.data = .data (.binary bytes)) ∨
      (¬inline url ∧ ∃ originalUrl, sent.data = .url url originalUrl)
  | .deprecatedUrl => ∃ url originalUrl, sent.data = .url url originalUrl
  | .other => ∀ url originalUrl, sent.data ≠ .url url originalUrl

section

variable {Url : Type} {crate : UrlCrate Url} {provider : Option String} {assets : DownloadedAssets}

theorem filePart_url (url : String) (originalUrl : Option String) (givenType mediaType : String)
    (filename : Option String) (providerOptions : Option ProviderOptions) :
    SentAs (fun url => (assets url).isSome) (.byUrl url givenType)
      (filePart assets (.url url originalUrl) mediaType filename providerOptions) := by
  rw [filePart]
  cases hAsset : assets url with
  | some file => exact .inl ⟨by simp [hAsset], file.data, rfl⟩
  | none => exact .inr ⟨by simp [hAsset], originalUrl, rfl⟩

theorem filePart_other {data : FileData} (hData : ∀ url originalUrl, data ≠ .url url originalUrl)
    (mediaType : String) (filename : Option String) (providerOptions : Option ProviderOptions) :
    SentAs (fun url => (assets url).isSome) .other (filePart assets data mediaType filename providerOptions) := by
  cases data with
  | url url originalUrl => exact absurd rfl (hData url originalUrl)
  | _ => exact fun _ _ => hData _ _

theorem normalizedUrl_ok {given : String} {data : FileData} (h : normalizedUrl crate given = .ok data) :
    ∃ url originalUrl, data = .url url originalUrl := by
  rw [normalizedUrl] at h
  split at h
  · cases h
  · cases h
    exact ⟨_, _, rfl⟩

variable {warnings : List Warning}

theorem toolResultContent_file {item : User.ToolResultContentPart} {sent : ToolResultContent}
    (h : toolResultContent crate provider assets item = .ok (sent, warnings)) :
    Option.Rel (SentAs fun url => (assets url).isSome) (itemFile item) sent.sentFile := by
  cases item with
  | text | custom =>
    cases h
    exact .none
  | file data mediaType filename providerOptions =>
    cases h
    refine .some ?_
    cases data with
    | url url originalUrl => exact filePart_url url originalUrl mediaType mediaType filename providerOptions
    | _ => exact filePart_other (fun _ _ hEq => by cases hEq) mediaType filename providerOptions
  | fileUrl | imageUrl =>
    obtain ⟨data, hData, h⟩ := bind_eq_ok.mp h
    cases h
    exact .some (normalizedUrl_ok hData)
  | fileId | imageFileId =>
    obtain ⟨reference, -, h⟩ := bind_eq_ok.mp h
    cases h
    exact .some fun _ _ hEq => by cases hEq
  | _ =>
    cases h
    exact .some fun _ _ hEq => by cases hEq

theorem toolResultOutput_files {output : User.ToolResultOutput} {sent : ToolResultOutput}
    (h : toolResultOutput crate provider assets output = .ok (sent, warnings)) :
    List.Forall₂ (SentAs fun url => (assets url).isSome) (outputFiles output) (sentOutputFiles sent) := by
  cases output with
  | content value =>
    obtain ⟨⟨items, raised⟩, hItems, h⟩ := bind_eq_ok.mp h
    cases h
    exact forall₂_filterMap (convertAll_ok hItems) fun _ _ ⟨_, hItem⟩ => toolResultContent_file hItem
  | _ =>
    cases h
    exact .nil

theorem userPart_file {part : User.UserContentPart} {sent : UserPart}
    (h : userPart crate assets part = .ok (sent, warnings)) :
    Option.Rel (SentAs fun url => (assets url).isSome) (userFile crate part) sent.sentFile := by
  cases part with
  | text =>
    cases h
    exact .none
  | image =>
    cases h
    exact .some fun _ _ hEq => by cases hEq
  | file data mediaType filename providerOptions =>
    obtain ⟨⟨converted, dataUrlMediaType⟩, hConverted, h⟩ := bind_eq_ok.mp h
    cases h
    refine .some ?_
    simp only [userUrl, hConverted]
    cases converted with
    | url url originalUrl => exact filePart_url url originalUrl _ _ filename providerOptions
    | _ => exact filePart_other (fun _ _ hEq => by cases hEq) _ filename providerOptions

theorem filter_sentFile (content : List UserPart) :
    (content.filter fun part => !isEmptyText part).filterMap UserPart.sentFile =
      content.filterMap UserPart.sentFile := by
  refine filterMap_filter_of_none (fun part hEmpty => ?_) content
  cases part with
  | text part => rfl
  | file part => simp [isEmptyText] at hEmpty

theorem results_files {given : List User.ToolResultPart} {sent : List SentResult}
    (h : List.Forall₂ (Sends crate provider assets) given sent) :
    List.Forall₂ (SentAs fun url => (assets url).isSome) (given.flatMap fun result => outputFiles result.output)
      (sent.flatMap fun result => sentOutputFiles result.output) :=
  List.rel_flatMap h fun _ _ hSends => by
    obtain ⟨warnings, hOutput⟩ := hSends.output
    exact toolResultOutput_files hOutput

theorem convertMessage_files {toolNames : String → Option String} {message : User.ModelMessage}
    {sent : LanguageModelMessage}
    (h : convertMessage crate { toolNames, provider, assets } message = .ok (sent, warnings)) :
    List.Forall₂ (SentAs fun url => (assets url).isSome) (givenFiles crate message) (sentFiles sent) := by
  have hResults := results_files (convertMessage_kept h).2
  cases message with
  | system =>
    cases h
    exact hResults
  | user content =>
    cases content with
    | text =>
      cases h
      exact .nil
    | parts parts =>
      obtain ⟨⟨content, raised⟩, hContent, h⟩ := bind_eq_ok.mp h
      cases h
      rw [sentFiles, filter_sentFile]
      exact forall₂_filterMap (convertAll_ok hContent) fun _ _ ⟨_, hPart⟩ => userPart_file hPart
  | assistant content =>
    cases content with
    | text =>
      cases h
      exact hResults
    | parts parts =>
      obtain ⟨⟨content, raised⟩, -, h⟩ := bind_eq_ok.mp h
      cases h
      exact hResults
  | tool content =>
    obtain ⟨⟨parts, raised⟩, -, h⟩ := bind_eq_ok.mp h
    cases h
    exact hResults

theorem files_push (messages : List LanguageModelMessage) (message : LanguageModelMessage) :
    (pushCombiningToolMessages messages message).flatMap sentFiles =
      messages.flatMap sentFiles ++ sentFiles message := by
  refine push_kept (fun part => part.result.toList.flatMap fun result => sentOutputFiles result.output)
    (fun content options => ?_) (fun options part => by rw [result_mergeOptions]) messages message
  simp only [sentFiles, sentResults, List.filterMap_eq_flatMap_toList, List.flatMap_assoc]

end

/-- A file given by URL is sent with its URL when the model fetches that URL itself for every part that has it, and
inline otherwise. -/
theorem url_files_sent {Url Pattern : Type} (crate : UrlCrate Url) (matching : TextMatching Pattern)
    (supported : SupportedUrls Pattern) (download : Nat → String → Except AiMuxError DownloadedFile)
    (messages : List User.ModelMessage) (instructions provider : Option String) (assets : DownloadedAssets)
    (prompt : LanguageModelPrompt)
    (hAssets : downloadAssets crate matching supported (createDefaultDownloadFunction download) messages = .ok assets)
    (hPrompt : convertWithDownloadedAssets crate provider assets messages instructions = .ok prompt) :
    List.Forall₂ (SentAs (SomeUnsupported crate matching supported messages))
      (messages.flatMap (givenFiles crate)) (prompt.flatMap sentFiles) := by
  have hInline : SomeUnsupported crate matching supported messages = fun url => (assets url).isSome = true := by
    funext url
    exact propext (downloadAssets_isSome hAssets url).symm
  rw [hInline]
  exact prompt_view files_push (fun _ _ _ _ => convertMessage_files) (fun _ => rfl) (fun _ _ => rfl) hPrompt

/-- Texts that are URLs in normal form. -/
def plainUrls : UrlCrate String where
  parse := .ok
  asStr := id
  scheme url := String.ofList (url.toList.takeWhile (· ≠ ':'))
  path _ := "/a"

/-- Patterns that match everything. -/
def everyUrl : TextMatching Unit where
  toLowercase := asciiLower
  isMatch _ _ := true

def fileMessage (mediaTypes : List String) : User.ModelMessage :=
  .user (.parts (mediaTypes.map fun mediaType => .file (.string "https://example.com/a") mediaType none none)) none

def urlFile (mediaType : String) : UserPart :=
  .file { data := .url "https://example.com/a" none, mediaType }

def inlineFile (mediaType : String) : UserPart :=
  .file { data := .data (.binary [1]), mediaType }

def oneByte : Nat → String → Except AiMuxError DownloadedFile := fun _ _ => .ok { data := [1], mediaType := none }

theorem url_files_sent_supported :
    List.Forall₂ (SentAs (SomeUnsupported plainUrls everyUrl [("image/*", [()])] [fileMessage ["image/png"]]))
      [.byUrl "https://example.com/a" "image/png"] [{ data := .url "https://example.com/a" none, mediaType := "image/png" }] :=
  url_files_sent plainUrls everyUrl [("image/*", [()])] oneByte [fileMessage ["image/png"]] none none (fun _ => none)
    [.user [urlFile "image/png"] none] rfl rfl

/-- One URL with two media types, one of which the model does not fetch. -/
theorem supported_url_inline :
    isSupported everyUrl [("image/*", [()])] "https://example.com/a" "image/png" = true ∧
    ∃ assets, downloadAssets plainUrls everyUrl [("image/*", [()])] (createDefaultDownloadFunction oneByte)
        [fileMessage ["image/png", "application/pdf"]] = .ok assets ∧
      convertWithDownloadedAssets plainUrls none assets [fileMessage ["image/png", "application/pdf"]] none =
        .ok [.user [inlineFile "image/png", inlineFile "application/pdf"] none] :=
  ⟨rfl, _, rfl, rfl⟩

end Aimux.Prompt
