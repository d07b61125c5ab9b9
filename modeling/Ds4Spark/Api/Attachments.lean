import Ds4Spark.Api.AttachmentChunks
import Ds4Spark.Queue.Submit

/-!
# Ds4Spark.Api.Attachments

The files of a chat request (`attach_request_files_to_messages`): they are collected from the body, cut into
chunks, and those that fit go into a message of their own before the last message of the user, with a
manifest for the metadata.

* `requestAttachments`, `contextBudget`, `attachmentPlan`: what is attached and what is selected.
* `manifest`, `attachmentMessage`, `attachRequestFiles`: what becomes of it.
* `attachments_selected`: nothing is lost in the chunks, and the selection keeps the budget when a chunk does.

A SHA-256, `str.lower` and the decoding of a base64 text are parameters.
-/

namespace Ds4Spark
namespace Api

open Queue (Error asInt raiseIf)

/-- What the API reads of a model profile. -/
structure ModelProfile where
  profileId : String
  capabilityClasses : List String
  supportedJobClasses : List String
  performance : JsonObj
  routing : JsonObj

/-- What the code calls outside. -/
structure Host where
  environ : String → Option String
  sha256Hex : String → String
  lower : String → String
  /-- `base64.b64decode(value, validate=True).decode("utf-8", "replace")`; none when it raises. -/
  decodeBase64 : String → Option String

/-- `d.get(key)`, when it is not null. -/
def given (d : JsonObj) (key : String) : Option Json :=
  match d.get? key with
  | none | some .null => none
  | some value => some value

/-- The places a setting of the request may stand in. -/
def containers (body : JsonObj) : List JsonObj :=
  [body, Json.asObj (body.get? "extra_body"), Json.asObj (body.get? "metadata")]

/-- `_setting`. -/
def setting (body : JsonObj) (key : String) : Option Json :=
  ((containers body).find? (fun container => container.has key)).bind (given · key)

/-- `_positive_env`. -/
def positiveEnv (host : Host) (name : String) (default : Int) : Int :=
  match (host.environ name).filter (· ≠ "") with
  | none => max 1 default
  | some value =>
    match pyInt? value with
    | some i => max 1 i
    | none => default

/-- `_positive_int`. -/
def positiveInt (value : Option Json) (default : Int) : Except Error Int :=
  match value with
  | none => .ok default
  | some value => (asInt value).map (max 1)

/-- `_truthy`. -/
def settingTrue (host : Host) : Option Json → Bool
  | none | some .null => false
  | some (.bool b) => b
  | some value => host.lower (pyStrip value.pyStr) ∉ ["", "0", "false", "no", "off"]

/-! ## The attachments of a request -/

/-- `_attachment_text`. -/
def attachmentText (host : Host) (item : JsonObj) : Except Error String :=
  match ["content", "text", "data"].findSome? (fun key => Json.strOf? (item.get? key)) with
  | some text => .ok text
  | none =>
    match Json.strOf? (item.get? "content_base64") with
    | none => .ok ""
    | some value =>
      match host.decodeBase64 value with
      | some text => .ok text
      | none => .error (.valueError "attachment content_base64 must decode as UTF-8 text")

/-- The first of the keys that is true, as a text. -/
def firstTrue (item : JsonObj) (keys : List String) (default : String) : String :=
  ((keys.findSome? item.getTrue).map Json.pyStr).getD default

/-- `_normalized_attachment`. -/
def normalizedAttachment (host : Host) (item : JsonObj × Nat) : Except Error Attachment := do
  let text ← attachmentText host item.1
  .ok {
    name := firstTrue item.1 ["name", "filename", "path", "id"] ("attachment-" ++ toString (item.2 + 1))
    mimeType := firstTrue item.1 ["mime_type", "media_type", "content_type", "type"] "text/plain"
    content := text
    byteCount := byteLen text.toList
    contentSha256 := host.sha256Hex text }

/-- The objects of a list that stands under the key. -/
def listedObjects (container : JsonObj) (key : String) : List JsonObj :=
  match container.get? key with
  | some (.arr items) => items.filterMap Json.objOf?
  | _ => []

/-- `_request_attachments`. -/
def requestAttachments (host : Host) (body : JsonObj) : Except Error (List Attachment) :=
  let items := (containers body).flatMap fun container =>
    ["attachments", "files", "input_attachments"].flatMap (listedObjects container)
  items.zipIdx.mapM (normalizedAttachment host)

/-! ## The budget -/

/-- `_profile_max_model_len`, and `_profile_context_window_tokens` word for word. -/
def profileMaxModelLen (profile : ModelProfile) : Except Error Int :=
  match (given profile.performance "max_model_len").or (given profile.routing "max_model_len") with
  | some value => (asInt value).map (max 1)
  | none => .ok 32768

/-- `_attachment_context_budget`. -/
def attachmentContextBudget (host : Host) (body : JsonObj) (profile : ModelProfile)
    (maxOutputTokens thinkingBudgetTokens : Int) : Except Error Int :=
  match setting body "ds4_attachment_context_budget_tokens" with
  | some override => (asInt override).map (max 1)
  | none => do
    let maxModelLen ← profileMaxModelLen profile
    let reserve := positiveEnv host "DS4_API_ATTACHMENT_CONTEXT_RESERVE_TOKENS" 2048 +
      (max 0 maxOutputTokens + max 0 thinkingBudgetTokens)
    .ok (max 1 (maxModelLen - reserve))

/-- `_last_user_text`. -/
def lastUserText (messages : List JsonObj) : String :=
  match messages.reverse.find? (fun message => Json.strOf? (message.get? "role") = some "user") with
  | some message => ((message.getTrue "content").map Json.pyStr).getD ""
  | none => ""

/-- What is attached, how it is cut and what of it is selected. -/
structure AttachmentPlan where
  attachments : List Attachment
  budgetTokens : Int
  chunkTokens : Int
  chunks : List AttachmentChunk
  selected : List AttachmentChunk

/-- The first half of `attach_request_files_to_messages`; none without attachments. -/
def attachmentPlan (host : Host) (body : JsonObj) (profile : ModelProfile) (messages : List JsonObj)
    (maxOutputTokens thinkingBudgetTokens : Int) : Except Error (Option AttachmentPlan) := do
  let attachments ← requestAttachments host body
  if attachments.isEmpty then .ok none
  else do
    let budget ← attachmentContextBudget host body profile maxOutputTokens thinkingBudgetTokens
    let wanted ← positiveInt (setting body "ds4_attachment_chunk_tokens")
      (positiveEnv host "DS4_API_ATTACHMENT_CHUNK_TOKENS" 8192)
    let chunkTokens := min budget wanted
    let chunks := chunksForAttachments host.sha256Hex attachments chunkTokens
    let selected := selectChunks host.lower chunks budget (lastUserText messages)
    .ok (some ⟨attachments, budget, chunkTokens, chunks, selected⟩)

/-! ## The manifest and the message -/

namespace AttachmentPlan

variable (plan : AttachmentPlan)

/-- `omitted_chunk_count`. -/
def omitted : Nat := plan.chunks.length - plan.selected.length

def isSelected (chunk : AttachmentChunk) : Bool :=
  plan.selected.any
    (fun other => other.attachmentIndex = chunk.attachmentIndex && other.chunkIndex = chunk.chunkIndex)

/-- An entry of `files`. -/
def fileEntry (file : Attachment × Nat) : Json :=
  let fileChunks := chunksAt plan.chunks file.2
  .obj [
    ("name", .str file.1.name),
    ("mime_type", .str file.1.mimeType),
    ("bytes", .int file.1.byteCount),
    ("content_sha256", .str file.1.contentSha256),
    ("chunk_count", .int fileChunks.length),
    ("included_chunk_count", .int (fileChunks.filter plan.isSelected).length),
    ("estimated_tokens", .int (totalTokens fileChunks))]

def bytes : Nat := (plan.attachments.map Attachment.byteCount).sum

/-- `_manifest`. -/
def manifest : JsonObj := [
  ("format", .str "ds4-attachment-context-v1"),
  ("attachment_count", .int plan.attachments.length),
  ("chunk_count", .int plan.chunks.length),
  ("included_chunk_count", .int plan.selected.length),
  ("omitted_chunk_count", .int plan.omitted),
  ("bytes", .int plan.bytes),
  ("estimated_tokens", .int (totalTokens plan.chunks)),
  ("included_estimated_tokens", .int (totalTokens plan.selected)),
  ("budget_tokens", .int plan.budgetTokens),
  ("chunk_target_tokens", .int plan.chunkTokens),
  ("selection", .str (if plan.selected.length = plan.chunks.length then "all" else "query_relevant")),
  ("files", .arr (plan.attachments.zipIdx.map plan.fileEntry))]

end AttachmentPlan

/-- `_xml_escape`: no replacement meets the text of an earlier one. -/
def xmlEscape (value : String) : String :=
  String.join (value.toList.map fun c =>
    if c = '&' then "&amp;" else if c = '"' then "&quot;" else if c = '<' then "&lt;"
    else if c = '>' then "&gt;" else String.singleton c)

/-- The lines of a chunk in the message. -/
def chunkLines (chunk : AttachmentChunk) : List String :=
  ["\n<ds4_attachment name=\"" ++ xmlEscape chunk.name ++ "\" chunk=\"" ++ toString (chunk.chunkIndex + 1) ++
      "\" sha256=\"" ++ chunk.contentSha256 ++ "\">",
    String.ofList chunk.text, "</ds4_attachment>"]

/-- `_attachment_message`; none when nothing is selected. -/
def attachmentMessage (plan : AttachmentPlan) : Option JsonObj :=
  if plan.selected.isEmpty then none
  else
    let lines := ["Attached file context follows. Use these file contents as source material for the next user request.",
        "Attachment manifest: " ++ toString plan.attachments.length ++ " file(s), " ++ toString plan.bytes ++
          " bytes, about " ++ toString (totalTokens plan.chunks) ++ " tokens, " ++
          toString plan.selected.length ++ "/" ++ toString plan.chunks.length ++ " chunk(s) included."] ++
      (if plan.omitted = 0 then []
       else ["Only query-relevant chunks fit this context window; " ++ toString plan.omitted ++
        " chunk(s) are omitted."]) ++
      plan.selected.flatMap chunkLines
    some [("role", .str "user"), ("content", .str (String.intercalate "\n" lines))]

/-- `_insert_before_final_user`, on the messages from the last one on. -/
def insertAfterUser (message : JsonObj) : List JsonObj → Option (List JsonObj)
  | [] => none
  | last :: earlier =>
    if Json.strOf? (last.get? "role") = some "user" then some (last :: message :: earlier)
    else (insertAfterUser message earlier).map (last :: ·)

def insertBeforeFinalUser (messages : List JsonObj) (message : JsonObj) : List JsonObj :=
  match insertAfterUser message messages.reverse with
  | some reversed => reversed.reverse
  | none => messages ++ [message]

/-- The error when all attachments are required and some do not fit. -/
def requireAllError (plan : AttachmentPlan) : Error :=
  .valueError ("attachments need about " ++ toString (totalTokens plan.chunks) ++
    " prompt tokens, but budget is " ++ toString plan.budgetTokens ++
    "; raise the model context, lower requested output/thinking tokens, or unset ds4_attachment_require_all")

/-- `attach_request_files_to_messages`: the messages and the manifest. -/
def attachRequestFiles (host : Host) (body : JsonObj) (profile : ModelProfile) (messages : List JsonObj)
    (maxOutputTokens thinkingBudgetTokens : Int) : Except Error (List JsonObj × Option JsonObj) := do
  match ← attachmentPlan host body profile messages maxOutputTokens thinkingBudgetTokens with
  | none => .ok (messages, none)
  | some plan =>
    if plan.omitted > 0 ∧ settingTrue host (setting body "ds4_attachment_require_all") = true then
      .error (requireAllError plan)
    else
      match attachmentMessage plan with
      | none => .ok (messages, some plan.manifest)
      | some message => .ok (insertBeforeFinalUser messages message, some plan.manifest)

/-! ## What is attached -/

/-- The chunks of files: those of every file, in the order of their numbers, are its text, and none is of more
than `3 * chunkTokens` bytes unless it is a single character. -/
structure Chunked (attachments : List Attachment) (chunkTokens : Int) (chunks : List AttachmentChunk) : Prop where
  text : ∀ index attachment, attachments[index]? = some attachment →
    ((chunksAt chunks index).map AttachmentChunk.text).flatten = attachment.content.toList
  numbers : ∀ index attachment, attachments[index]? = some attachment →
    (chunksAt chunks index).map AttachmentChunk.chunkIndex = List.range (chunksAt chunks index).length
  bytes : ∀ chunk ∈ chunks, byteLen chunk.text ≤ 3 * chunkTokens ∨ chunk.text.length = 1

/-- A selection: some of the chunks in their order, and all of them when the budget has room. -/
structure Selected (chunks : List AttachmentChunk) (budgetTokens : Int) (selected : List AttachmentChunk) :
    Prop where
  order : selected.Sublist chunks
  all : totalTokens chunks ≤ budgetTokens → selected = chunks

section Attached

variable {sha256Hex : String → String} {lower : String → String} {chunkTokens budgetTokens : Int}

theorem chunksForAttachments_chunked (htokens : 1 ≤ chunkTokens) (attachments : List Attachment) :
    Chunked attachments chunkTokens (chunksForAttachments sha256Hex attachments chunkTokens) where
  text index attachment hfile := by
    rw [chunksAt_file hfile, chunksOfFile_text, splitTextByBytes_flatten]
  numbers index attachment hfile := by
    rw [chunksAt_file hfile]
    exact chunksOfFile_numbers _
  bytes chunk hchunk := by
    rcases (chunk_bounded hchunk).1 with hbytes | hone
    · left
      unfold chunkTarget at hbytes
      omega
    · exact .inr hone

theorem selectChunks_selected (chunks : List AttachmentChunk) (query : String) :
    Selected chunks budgetTokens (selectChunks lower chunks budgetTokens query) where
  order := selectChunks_sublist
  all hfits := if_pos hfits

/-- A budget that has room for a chunk is kept. -/
theorem selectChunks_within {attachments : List Attachment} {query : String} (htokens : 1 ≤ chunkTokens)
    (hbudget : chunkTokens ≤ budgetTokens) :
    totalTokens (selectChunks lower (chunksForAttachments sha256Hex attachments chunkTokens) budgetTokens query) ≤
      budgetTokens := by
  by_cases hsome : selectChunks lower (chunksForAttachments sha256Hex attachments chunkTokens) budgetTokens query = []
  · rw [hsome]
    exact le_trans (by simp [totalTokens]) (le_trans htokens hbudget)
  · rcases selectChunks_total hsome with hused | ⟨first, hhead, _, hlong⟩
    · exact hused
    · have hfirst : first ∈ ranking lower query (chunksForAttachments sha256Hex attachments chunkTokens) :=
        List.mem_of_mem_head? hhead
      obtain ⟨entry, hentry, rfl⟩ := List.mem_map.mp (ranking_perm.subset hfirst)
      have hle := chunk_tokens_le (List.fst_mem_of_mem_zipIdx hentry)
      unfold chunkTarget at hle
      change budgetTokens < entry.1.estimatedTokens at hlong
      omega

/-- `max(1, int(x))`. -/
theorem one_le_of_map {x : Except Error Int} {n : Int} (h : x.map (max 1) = .ok n) : 1 ≤ n := by
  cases x with
  | error e => cases h
  | ok i =>
    cases h
    exact Int.le_max_left 1 i

theorem positiveEnv_pos (host : Host) (name : String) {default : Int} (hdefault : 1 ≤ default) :
    1 ≤ positiveEnv host name default := by
  unfold positiveEnv
  split
  · omega
  · split
    · omega
    · exact hdefault

theorem positiveInt_pos {value : Option Json} {default n : Int} (hdefault : 1 ≤ default)
    (h : positiveInt value default = .ok n) : 1 ≤ n := by
  cases value with
  | none =>
    cases h
    exact hdefault
  | some value => exact one_le_of_map h

theorem attachmentContextBudget_pos {host : Host} {body : JsonObj} {profile : ModelProfile}
    {maxOutputTokens thinkingBudgetTokens n : Int}
    (h : attachmentContextBudget host body profile maxOutputTokens thinkingBudgetTokens = .ok n) : 1 ≤ n := by
  unfold attachmentContextBudget at h
  split at h
  · exact one_le_of_map h
  · obtain ⟨maxModelLen, _, h⟩ := Queue.bind_eq_ok h
    cases h
    omega

/-- What `attachment_plan` puts together. -/
theorem attachmentPlan_spec {host : Host} {body : JsonObj} {profile : ModelProfile} {messages : List JsonObj}
    {maxOutputTokens thinkingBudgetTokens : Int} {plan : AttachmentPlan}
    (h : attachmentPlan host body profile messages maxOutputTokens thinkingBudgetTokens = .ok (some plan)) :
    1 ≤ plan.chunkTokens ∧ plan.chunkTokens ≤ plan.budgetTokens ∧
      plan.chunks = chunksForAttachments host.sha256Hex plan.attachments plan.chunkTokens ∧
      plan.selected = selectChunks host.lower plan.chunks plan.budgetTokens (lastUserText messages) := by
  obtain ⟨attachments, _, h⟩ := Queue.bind_eq_ok h
  split at h
  · cases h
  · obtain ⟨budget, hbudget, h⟩ := Queue.bind_eq_ok h
    obtain ⟨wanted, hwanted, h⟩ := Queue.bind_eq_ok h
    cases h
    have hpos := attachmentContextBudget_pos hbudget
    have hwant := positiveInt_pos (positiveEnv_pos host "DS4_API_ATTACHMENT_CHUNK_TOKENS" (by decide)) hwanted
    exact ⟨le_min hpos hwant, min_le_left _ _, rfl, rfl⟩

theorem attachRequestFiles_eq {host : Host} {body : JsonObj} {profile : ModelProfile} {messages : List JsonObj}
    {maxOutputTokens thinkingBudgetTokens : Int} {plan : AttachmentPlan}
    (h : attachmentPlan host body profile messages maxOutputTokens thinkingBudgetTokens = .ok (some plan))
    (hall : settingTrue host (setting body "ds4_attachment_require_all") = true) :
    (plan.selected = plan.chunks ∧
        ∃ messages', attachRequestFiles host body profile messages maxOutputTokens thinkingBudgetTokens =
          .ok (messages', some plan.manifest)) ∨
      (plan.selected ≠ plan.chunks ∧
        attachRequestFiles host body profile messages maxOutputTokens thinkingBudgetTokens =
          .error (requireAllError plan)) := by
  obtain ⟨_, _, _, hselected⟩ := attachmentPlan_spec h
  have hsub : plan.selected.Sublist plan.chunks := hselected ▸ selectChunks_sublist
  by_cases homitted : plan.omitted > 0
  · right
    refine ⟨fun heq => ?_, by simp [attachRequestFiles, h, hall, homitted, bind, Except.bind]⟩
    rw [AttachmentPlan.omitted, heq] at homitted
    omega
  · left
    refine ⟨hsub.eq_of_length_le (by unfold AttachmentPlan.omitted at homitted; omega), ?_⟩
    cases hmessage : attachmentMessage plan with
    | none => exact ⟨messages, by simp [attachRequestFiles, h, hmessage, homitted, bind, Except.bind]⟩
    | some message =>
      exact ⟨insertBeforeFinalUser messages message,
        by simp [attachRequestFiles, h, hmessage, homitted, bind, Except.bind]⟩

/-- No file loses anything in the chunks, and a selection keeps the order. It keeps the budget, unless the most
relevant chunk is too long for it and taken alone; no request has a budget so small. -/
theorem attachments_selected (htokens : 1 ≤ chunkTokens) (attachments : List Attachment) :
    Chunked attachments chunkTokens (chunksForAttachments sha256Hex attachments chunkTokens) ∧
    (∀ budgetTokens query chunks selected,
      chunks = chunksForAttachments sha256Hex attachments chunkTokens →
      selected = selectChunks lower chunks budgetTokens query →
        Selected chunks budgetTokens selected ∧
        (chunkTokens ≤ budgetTokens → totalTokens selected ≤ budgetTokens) ∧
        (selected ≠ [] → totalTokens selected ≤ budgetTokens ∨
          ∃ first, (ranking lower query chunks).head? = some first ∧ selected = [first.chunk] ∧
            budgetTokens < first.chunk.estimatedTokens)) ∧
    ∀ host body profile messages maxOutputTokens thinkingBudgetTokens plan,
      attachmentPlan host body profile messages maxOutputTokens thinkingBudgetTokens = .ok (some plan) →
        Chunked plan.attachments plan.chunkTokens plan.chunks ∧
        Selected plan.chunks plan.budgetTokens plan.selected ∧
        totalTokens plan.selected ≤ plan.budgetTokens ∧
        (settingTrue host (setting body "ds4_attachment_require_all") = true →
          (plan.selected = plan.chunks ∧
            ∃ messages', attachRequestFiles host body profile messages maxOutputTokens thinkingBudgetTokens =
              .ok (messages', some plan.manifest)) ∨
          (plan.selected ≠ plan.chunks ∧
            attachRequestFiles host body profile messages maxOutputTokens thinkingBudgetTokens =
              .error (requireAllError plan))) := by
  refine ⟨chunksForAttachments_chunked htokens attachments, ?_, ?_⟩
  · rintro budgetTokens query chunks selected rfl rfl
    exact ⟨selectChunks_selected _ query, selectChunks_within htokens, selectChunks_total⟩
  · intro host body profile messages maxOutputTokens thinkingBudgetTokens plan hplan
    obtain ⟨hpos, hbudget, hchunks, hselected⟩ := attachmentPlan_spec hplan
    refine ⟨?_, ?_, ?_, attachRequestFiles_eq hplan⟩
    · rw [hchunks]
      exact chunksForAttachments_chunked hpos plan.attachments
    · rw [hselected]
      exact selectChunks_selected plan.chunks (lastUserText messages)
    · rw [hselected, hchunks]
      exact selectChunks_within hpos hbudget

end Attached

/-- A file of six bytes. -/
def sixBytes : Attachment := ⟨"a.txt", "text/plain", "abcdef", 6, ""⟩

theorem selectChunks_too_long :
    ¬ totalTokens (selectChunks id (chunksForAttachments id [sixBytes] 2) 1 "") ≤ (1 : Int) := by
  decide

/-- The file in chunks of three bytes, a budget for one of them, and all of them asked for. -/
def sixBody : JsonObj := [("files", .arr [.obj [("name", .str "a.txt"), ("content", .str "abcdef")]]),
  ("ds4_attachment_context_budget_tokens", .int 1), ("ds4_attachment_chunk_tokens", .int 1),
  ("ds4_attachment_require_all", .bool true)]

def plainHost : Host where
  environ := fun _ => none
  sha256Hex := id
  lower := id
  decodeBase64 := some

theorem attachments_selected_six :
    Chunked [sixBytes] 1 (chunksForAttachments id [sixBytes] 1) ∧
      totalTokens (selectChunks id (chunksForAttachments id [sixBytes] 1) 1 "def") ≤ (1 : Int) ∧
      ∃ plan, attachmentPlan plainHost sixBody ⟨"p", [], [], [], []⟩ [] 0 0 = .ok (some plan) ∧
        totalTokens plan.selected ≤ plan.budgetTokens ∧
        attachRequestFiles plainHost sixBody ⟨"p", [], [], [], []⟩ [] 0 0 = .error (requireAllError plan) := by
  have h := @attachments_selected id id 1 (by decide) [sixBytes]
  obtain ⟨plan, hplan⟩ : ∃ plan, attachmentPlan plainHost sixBody ⟨"p", [], [], [], []⟩ [] 0 0 = .ok (some plan) :=
    ⟨_, rfl⟩
  obtain ⟨-, -, hbudget, hall⟩ := h.2.2 plainHost sixBody _ [] 0 0 plan hplan
  refine ⟨h.1, (h.2.1 1 "def" _ _ rfl rfl).2.1 (by decide), plan, hplan, hbudget, ?_⟩
  rcases hall rfl with ⟨-, _, hattached⟩ | ⟨-, herror⟩
  · -- one chunk of the two is left out
    cases hattached
  · exact herror

end Api
end Ds4Spark
