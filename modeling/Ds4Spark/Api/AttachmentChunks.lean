import Ds4Spark.Lib.OrderBy
import Mathlib.Data.List.Infix
import Mathlib.Data.List.Dedup
import Mathlib.Algebra.BigOperators.Group.List.Basic
import Mathlib.Algebra.GroupWithZero.Nat

/-!
# Ds4Spark.Api.AttachmentChunks

The files attached to a request are cut into chunks, and of the chunks those are selected that a budget of
prompt tokens has room for.

* `splitTextByBytes`: a text is cut at its line ends, a line that is too long between two characters.
* `chunksForAttachments`: the chunks of all files (`_chunks_for_attachments`).
* `selectChunks`: greedily by the words of the query, in the order of the files (`_select_chunks`).
* `splitTextByBytes_flatten`, `splitTextByBytes_bounded`: nothing is lost, no chunk is too long.
* `selectChunks_sublist`, `selectChunks_total`: what a selection is and what it costs.

`str.lower` needs the Unicode tables and stays a parameter.
-/

namespace Ds4Spark
namespace Api

/-! ## Texts -/

/-- `len(text.encode("utf-8"))`. -/
def byteLen (text : List Char) : Nat := (text.map Char.utf8Size).sum

@[simp] theorem byteLen_nil : byteLen [] = 0 := rfl

@[simp] theorem byteLen_singleton (c : Char) : byteLen [c] = c.utf8Size := by simp [byteLen]

@[simp] theorem byteLen_append (a b : List Char) : byteLen (a ++ b) = byteLen a + byteLen b := by
  simp [byteLen]

/-- `_rough_tokens`. -/
def roughTokens (text : List Char) : Nat := max 1 (byteLen text / 3)

/-- The characters that end a line for `splitlines`. -/
def lineEnd (c : Char) : Bool :=
  (10 ≤ c.toNat && c.toNat ≤ 13) || (28 ≤ c.toNat && c.toNat ≤ 30) || c.toNat = 133 ||
    c.toNat = 8232 || c.toNat = 8233

/-- `text.splitlines(keepends=True)`, with the line read so far. A `\r\n` is one line end. -/
def splitlines : List Char → List Char → List (List Char)
  | line, [] => if line.isEmpty then [] else [line]
  | line, c :: text =>
    if lineEnd c && !(c = '\r' && text.head? = some '\n') then (line ++ [c]) :: splitlines [] text
    else splitlines (line ++ [c]) text

/-- `"".join(current)` is a chunk, if there is anything in it. -/
def flush (current : List Char) : List (List Char) := if current.isEmpty then [] else [current]

/-- `_split_long_line`, with the characters read so far and their bytes. -/
def splitLongLine (maxBytes : Nat) : List Char → Nat → List Char → List (List Char)
  | current, _, [] => flush current
  | current, currentBytes, char :: line =>
    if !current.isEmpty && currentBytes + char.utf8Size > maxBytes then
      current :: splitLongLine maxBytes [char] char.utf8Size line
    else splitLongLine maxBytes (current ++ [char]) (currentBytes + char.utf8Size) line

/-- The loop over the lines, none of which is empty; `current` is the text of the lines read so far. -/
def splitLoop (maxBytes : Nat) : List Char → Nat → List (List Char) → List (List Char)
  | current, _, [] => flush current
  | current, currentBytes, line :: lines =>
    if byteLen line > maxBytes then
      flush current ++ splitLongLine maxBytes [] 0 line ++ splitLoop maxBytes [] 0 lines
    else if !current.isEmpty && currentBytes + byteLen line > maxBytes then
      current :: splitLoop maxBytes line (byteLen line) lines
    else splitLoop maxBytes (current ++ line) (currentBytes + byteLen line) lines

/-- `_split_text_by_bytes`. -/
def splitTextByBytes (text : List Char) (maxBytes : Nat) : List (List Char) :=
  if byteLen text ≤ maxBytes then flush text else splitLoop maxBytes [] 0 (splitlines [] text)

@[simp] theorem flush_flatten (current : List Char) : (flush current).flatten = current := by
  cases current <;> simp [flush]

theorem mem_flush {current chunk : List Char} (h : chunk ∈ flush current) : chunk = current := by
  unfold flush at h
  split at h
  · cases h
  · exact List.mem_singleton.mp h

theorem splitlines_flatten (text : List Char) : ∀ line, (splitlines line text).flatten = line ++ text := by
  induction text with
  | nil =>
    intro line
    cases line <;> simp [splitlines]
  | cons c text ih =>
    intro line
    rw [splitlines]
    split
    · simp [ih]
    · rw [ih]
      simp

theorem splitLongLine_flatten (maxBytes : Nat) (line : List Char) :
    ∀ current currentBytes, (splitLongLine maxBytes current currentBytes line).flatten = current ++ line := by
  induction line with
  | nil =>
    intro current currentBytes
    simp [splitLongLine]
  | cons char line ih =>
    intro current currentBytes
    rw [splitLongLine]
    split
    · simp [ih]
    · rw [ih]
      simp

theorem splitLoop_flatten (maxBytes : Nat) (lines : List (List Char)) :
    ∀ current currentBytes,
      (splitLoop maxBytes current currentBytes lines).flatten = current ++ lines.flatten := by
  induction lines with
  | nil =>
    intro current currentBytes
    simp [splitLoop]
  | cons line lines ih =>
    intro current currentBytes
    rw [splitLoop]
    split
    · simp [ih, splitLongLine_flatten]
    · split
      · simp [ih]
      · rw [ih]
        simp

/-- The chunks of a text, one after the other, are the text. -/
theorem splitTextByBytes_flatten (text : List Char) (maxBytes : Nat) :
    (splitTextByBytes text maxBytes).flatten = text := by
  unfold splitTextByBytes
  split
  · exact flush_flatten text
  · rw [splitLoop_flatten, splitlines_flatten, List.nil_append, List.nil_append]

/-- A text that fits, or a single character. -/
def FitsBytes (maxBytes : Nat) (text : List Char) : Prop := byteLen text ≤ maxBytes ∨ text.length = 1

theorem splitLongLine_bounded {maxBytes : Nat} (line : List Char) :
    ∀ {current currentBytes}, currentBytes = byteLen current →
      (current ≠ [] → FitsBytes maxBytes current) →
        ∀ chunk ∈ splitLongLine maxBytes current currentBytes line, FitsBytes maxBytes chunk := by
  induction line with
  | nil =>
    intro current currentBytes _ hcurrent chunk hchunk
    cases current with
    | nil => simp [splitLongLine, flush] at hchunk
    | cons c rest =>
      rw [mem_flush hchunk]
      exact hcurrent (by simp)
  | cons char line ih =>
    intro current currentBytes hbytes hcurrent chunk hchunk
    rw [splitLongLine] at hchunk
    split at hchunk
    · rename_i hfull
      rcases List.mem_cons.mp hchunk with rfl | hchunk
      · exact hcurrent (by simp at hfull; exact hfull.1)
      · exact ih (by simp) (fun _ => .inr rfl) chunk hchunk
    · rename_i hroom
      refine ih (by simp [hbytes]) (fun _ => ?_) chunk hchunk
      cases current with
      | nil => exact .inr rfl
      | cons c rest =>
        simp only [List.isEmpty_cons, Bool.not_false, Bool.true_and, decide_eq_true_eq] at hroom
        exact .inl (by rw [byteLen_append, byteLen_singleton]; omega)

theorem splitLoop_bounded {maxBytes : Nat} (lines : List (List Char)) :
    ∀ {current currentBytes}, currentBytes = byteLen current → byteLen current ≤ maxBytes →
      ∀ chunk ∈ splitLoop maxBytes current currentBytes lines, FitsBytes maxBytes chunk := by
  induction lines with
  | nil =>
    intro current currentBytes _ hcurrent chunk hchunk
    rw [mem_flush hchunk]
    exact .inl hcurrent
  | cons line lines ih =>
    intro current currentBytes hbytes hcurrent chunk hchunk
    rw [splitLoop] at hchunk
    split at hchunk
    · rcases List.mem_append.mp hchunk with hchunk | hchunk
      · rcases List.mem_append.mp hchunk with hchunk | hchunk
        · rw [mem_flush hchunk]
          exact .inl hcurrent
        · exact splitLongLine_bounded line rfl (fun h => absurd rfl h) chunk hchunk
      · exact ih rfl (by simp) chunk hchunk
    · rename_i hshort
      split at hchunk
      · rcases List.mem_cons.mp hchunk with rfl | hchunk
        · exact .inl hcurrent
        · exact ih rfl (by omega) chunk hchunk
      · rename_i hroom
        refine ih (by simp [hbytes]) ?_ chunk hchunk
        rw [byteLen_append]
        cases current with
        | nil => simpa using hshort
        | cons c rest =>
          simp only [List.isEmpty_cons, Bool.not_false, Bool.true_and, decide_eq_true_eq] at hroom
          omega

theorem splitTextByBytes_bounded {text : List Char} {maxBytes : Nat} :
    ∀ chunk ∈ splitTextByBytes text maxBytes, FitsBytes maxBytes chunk := by
  intro chunk hchunk
  unfold splitTextByBytes at hchunk
  split at hchunk
  · rename_i hfits
    rw [mem_flush hchunk]
    exact .inl hfits
  · exact splitLoop_bounded (splitlines [] text) rfl (by simp) chunk hchunk

/-- A chunk that fits into `3 * tokens` bytes is of no more than so many tokens. -/
theorem roughTokens_le {text : List Char} {tokens : Nat} (htokens : 1 ≤ tokens)
    (h : FitsBytes (tokens * 3) text) : roughTokens text ≤ tokens := by
  have hbytes : byteLen text / 3 ≤ tokens := by
    rcases h with h | h
    · omega
    · obtain ⟨c, rfl⟩ := List.length_eq_one_iff.mp h
      have hsize := c.utf8Size_le_four
      rw [byteLen_singleton]
      omega
  exact Nat.max_le.mpr ⟨htokens, hbytes⟩

/-! ## Chunks -/

/-- An attachment as `_normalized_attachment` leaves it. -/
structure Attachment where
  name : String
  mimeType : String
  content : String
  byteCount : Nat
  contentSha256 : String

structure AttachmentChunk where
  attachmentIndex : Nat
  chunkIndex : Nat
  name : String
  mimeType : String
  text : List Char
  byteCount : Nat
  estimatedTokens : Nat
  contentSha256 : String
deriving DecidableEq

variable (sha256Hex : String → String) (lower : String → String)

def attachmentChunk (attachment : Attachment) (attachmentIndex : Nat) (text : List Char × Nat) :
    AttachmentChunk where
  attachmentIndex := attachmentIndex
  chunkIndex := text.2
  name := attachment.name
  mimeType := attachment.mimeType
  text := text.1
  byteCount := byteLen text.1
  estimatedTokens := roughTokens text.1
  contentSha256 := sha256Hex (String.ofList text.1)

/-- `max(1, int(chunk_tokens))`. -/
def chunkTarget (chunkTokens : Int) : Nat := (max 1 chunkTokens).toNat

/-- The chunks of one file, under their numbers. -/
def chunksOfFile (chunkTokens : Int) (file : Attachment × Nat) : List AttachmentChunk :=
  (splitTextByBytes file.1.content.toList (chunkTarget chunkTokens * 3)).zipIdx.map
    (attachmentChunk sha256Hex file.1 file.2)

/-- `_chunks_for_attachments`. -/
def chunksForAttachments (attachments : List Attachment) (chunkTokens : Int) : List AttachmentChunk :=
  attachments.zipIdx.flatMap (chunksOfFile sha256Hex chunkTokens)

/-- `sum(chunk.estimated_tokens for chunk in chunks)`. -/
def totalTokens (chunks : List AttachmentChunk) : Nat := (chunks.map AttachmentChunk.estimatedTokens).sum

/-! ## The selection -/

def wordChar (c : Char) : Bool := c.isAlphanum || c = '_'

/-- The runs of word characters, with the run read so far. -/
def wordRuns : List Char → List Char → List (List Char)
  | word, [] => [word]
  | word, c :: text => if wordChar c then wordRuns (word ++ [c]) text else word :: wordRuns [] text

/-- `_STOP_TERMS`. -/
def stopTerms : List String :=
  ["the", "and", "for", "that", "this", "with", "from", "into", "what", "when", "where", "which", "should",
    "would"]

/-- `_query_terms`: the words of three letters and more. -/
def queryTerms (query : String) : List String :=
  (((wordRuns [] (lower query).toList).filter (fun word => 3 ≤ word.length)).map String.ofList).filter
    (fun term => term ∉ stopTerms)

/-- `_chunk_score`: how many of the terms are in the text. -/
def chunkScore (query : String) (chunk : AttachmentChunk) : Nat :=
  (queryTerms lower query).dedup.countP
    (fun term => term.toList <:+: (lower (String.ofList chunk.text)).toList)

structure Scored where
  score : Nat
  index : Nat
  chunk : AttachmentChunk

def scored (query : String) (chunk : AttachmentChunk × Nat) : Scored :=
  ⟨chunkScore lower query chunk.1, chunk.2, chunk.1⟩

/-- The order of the keys `(-score, index)`. -/
def Scored.before (a b : Scored) : Prop := b.score < a.score ∨ (a.score = b.score ∧ a.index ≤ b.index)

instance : DecidableRel Scored.before := fun a b =>
  inferInstanceAs (Decidable (b.score < a.score ∨ (a.score = b.score ∧ a.index ≤ b.index)))

/-- The chunks, the most relevant first. -/
def ranking (query : String) (chunks : List AttachmentChunk) : List Scored :=
  (chunks.zipIdx.map (scored lower query)).insertionSort Scored.before

/-- The loop over the scored chunks. One that is too long for the budget is taken when it is the first, and
alone. -/
def selectLoop (budgetTokens : Int) : List Scored → Int → List Scored → List Scored
  | selected, _, [] => selected
  | selected, used, item :: rest =>
    if !selected.isEmpty && used + item.chunk.estimatedTokens > budgetTokens then
      selectLoop budgetTokens selected used rest
    else if item.chunk.estimatedTokens > budgetTokens && selected.isEmpty then selected ++ [item]
    else selectLoop budgetTokens (selected ++ [item]) (used + item.chunk.estimatedTokens) rest

/-- `_select_chunks`. -/
def selectChunks (chunks : List AttachmentChunk) (budgetTokens : Int) (query : String) :
    List AttachmentChunk :=
  if totalTokens chunks ≤ budgetTokens then chunks
  else ((selectLoop budgetTokens [] 0 (ranking lower query chunks)).insertionSort
    (fun a b => a.index ≤ b.index)).map Scored.chunk

/-! ## What the chunks are -/

section Chunks

variable {sha256Hex} {attachments : List Attachment} {chunkTokens : Int}

/-- The chunks of file number `index`. -/
def chunksAt (chunks : List AttachmentChunk) (index : Nat) : List AttachmentChunk :=
  chunks.filter (fun chunk => chunk.attachmentIndex = index)

theorem chunksOfFile_index {file : Attachment × Nat} {chunk : AttachmentChunk}
    (h : chunk ∈ chunksOfFile sha256Hex chunkTokens file) : chunk.attachmentIndex = file.2 := by
  obtain ⟨text, _, rfl⟩ := List.mem_map.mp h
  rfl

theorem chunksAt_flatMap {index : Nat} (files : List (Attachment × Nat)) :
    chunksAt (files.flatMap (chunksOfFile sha256Hex chunkTokens)) index =
      (files.filter (fun file => file.2 = index)).flatMap (chunksOfFile sha256Hex chunkTokens) := by
  induction files with
  | nil => rfl
  | cons file files ih =>
    have hsplit : chunksAt ((file :: files).flatMap (chunksOfFile sha256Hex chunkTokens)) index =
        chunksAt (chunksOfFile sha256Hex chunkTokens file) index ++
          chunksAt (files.flatMap (chunksOfFile sha256Hex chunkTokens)) index := by
      simp [chunksAt]
    rw [hsplit, ih]
    by_cases hfile : file.2 = index
    · have hall : chunksAt (chunksOfFile sha256Hex chunkTokens file) index =
          chunksOfFile sha256Hex chunkTokens file :=
        List.filter_eq_self.mpr fun chunk h => by simp [chunksOfFile_index h, hfile]
      simp [hall, hfile]
    · have hnone : chunksAt (chunksOfFile sha256Hex chunkTokens file) index = [] :=
        List.filter_eq_nil_iff.mpr fun chunk h => by simp [chunksOfFile_index h, hfile]
      simp [hnone, hfile]

/-- Of the numbered files one has a given number. -/
theorem filter_zipIdx {α : Type} (files : List α) : ∀ (first : Nat) {index : Nat} {file : α},
    files[index]? = some file →
      (files.zipIdx first).filter (fun entry => entry.2 = first + index) = [(file, first + index)] := by
  induction files with
  | nil => simp
  | cons head files ih =>
    intro first index file hfile
    cases index with
    | zero =>
      obtain rfl : head = file := by simpa using hfile
      have hnone : (files.zipIdx (first + 1)).filter (fun entry => entry.2 = first + 0) = [] := by
        refine List.filter_eq_nil_iff.mpr fun entry hentry => ?_
        have hle := (List.mem_zipIdx hentry).1
        simp
        omega
      rw [List.zipIdx_cons, List.filter_cons, hnone]
      simp
    | succ index =>
      have hrest := ih (first + 1) (by simpa using hfile)
      rw [show first + (index + 1) = first + 1 + index by omega, List.zipIdx_cons, List.filter_cons, hrest]
      simp
      omega

theorem chunksAt_file {index : Nat} {attachment : Attachment} (h : attachments[index]? = some attachment) :
    chunksAt (chunksForAttachments sha256Hex attachments chunkTokens) index =
      chunksOfFile sha256Hex chunkTokens (attachment, index) := by
  have hfile := filter_zipIdx attachments 0 h
  rw [Nat.zero_add] at hfile
  rw [chunksForAttachments, chunksAt_flatMap, hfile]
  simp

theorem chunksOfFile_text (file : Attachment × Nat) :
    (chunksOfFile sha256Hex chunkTokens file).map AttachmentChunk.text =
      splitTextByBytes file.1.content.toList (chunkTarget chunkTokens * 3) := by
  have htext : AttachmentChunk.text ∘ attachmentChunk sha256Hex file.1 file.2 = Prod.fst := rfl
  rw [chunksOfFile, List.map_map, htext]
  exact List.zipIdx_map_fst _ _

theorem chunksOfFile_numbers (file : Attachment × Nat) :
    (chunksOfFile sha256Hex chunkTokens file).map AttachmentChunk.chunkIndex =
      List.range (chunksOfFile sha256Hex chunkTokens file).length := by
  have hindex : AttachmentChunk.chunkIndex ∘ attachmentChunk sha256Hex file.1 file.2 = Prod.snd := rfl
  rw [chunksOfFile, List.map_map, hindex, List.zipIdx_map_snd, List.length_map, List.length_zipIdx,
    List.range_eq_range']

theorem chunk_bounded {chunk : AttachmentChunk}
    (h : chunk ∈ chunksForAttachments sha256Hex attachments chunkTokens) :
    FitsBytes (chunkTarget chunkTokens * 3) chunk.text ∧ chunk.estimatedTokens = roughTokens chunk.text := by
  obtain ⟨file, _, hchunk⟩ := List.mem_flatMap.mp h
  obtain ⟨text, htext, rfl⟩ := List.mem_map.mp hchunk
  exact ⟨splitTextByBytes_bounded text.1 (List.fst_mem_of_mem_zipIdx htext), rfl⟩

theorem chunk_tokens_le {chunk : AttachmentChunk}
    (h : chunk ∈ chunksForAttachments sha256Hex attachments chunkTokens) :
    chunk.estimatedTokens ≤ chunkTarget chunkTokens := by
  obtain ⟨hfits, htokens⟩ := chunk_bounded h
  rw [htokens]
  refine roughTokens_le ?_ hfits
  unfold chunkTarget
  omega

end Chunks

/-! ## What a selection is -/

section Selection

variable {lower} {budgetTokens : Int} {chunks : List AttachmentChunk} {query : String}

/-- What a selection costs. -/
def usedTokens (selected : List Scored) : Nat := totalTokens (selected.map Scored.chunk)

@[simp] theorem usedTokens_append (a b : List Scored) : usedTokens (a ++ b) = usedTokens a + usedTokens b := by
  simp [usedTokens, totalTokens]

@[simp] theorem usedTokens_singleton (item : Scored) : usedTokens [item] = item.chunk.estimatedTokens := by
  simp [usedTokens, totalTokens]

theorem selectLoop_taken (budgetTokens : Int) (rest : List Scored) : ∀ selected used,
    ∃ taken, taken.Sublist rest ∧ selectLoop budgetTokens selected used rest = selected ++ taken := by
  induction rest with
  | nil =>
    intro selected used
    exact ⟨[], List.Sublist.refl _, by simp [selectLoop]⟩
  | cons item rest ih =>
    intro selected used
    rw [selectLoop]
    split
    · obtain ⟨taken, hsub, heq⟩ := ih selected used
      exact ⟨taken, hsub.cons item, heq⟩
    · split
      · exact ⟨[item], List.Sublist.cons_cons item (List.nil_sublist rest), rfl⟩
      · obtain ⟨taken, hsub, heq⟩ := ih (selected ++ [item]) (used + item.chunk.estimatedTokens)
        exact ⟨item :: taken, hsub.cons_cons item, by rw [heq, List.append_assoc]; rfl⟩

/-- Once something within the budget is selected, the selection stays within it. -/
theorem selectLoop_used (budgetTokens : Int) (rest : List Scored) : ∀ (selected : List Scored), selected ≠ [] →
    usedTokens selected ≤ budgetTokens →
      usedTokens (selectLoop budgetTokens selected (usedTokens selected) rest) ≤ budgetTokens := by
  induction rest with
  | nil =>
    intro selected _ hused
    exact hused
  | cons item rest ih =>
    intro selected hselected hused
    rw [selectLoop]
    split
    · exact ih selected hselected hused
    · rename_i hroom
      rw [if_neg (by simp [hselected])]
      have hnext := ih (selected ++ [item]) (by simp)
      rw [usedTokens_append, usedTokens_singleton, Int.natCast_add] at hnext
      refine hnext ?_
      simpa [hselected] using hroom

/-- The first item is taken in any case. -/
theorem selectLoop_start (budgetTokens : Int) (first : Scored) (rest : List Scored) :
    usedTokens (selectLoop budgetTokens [] 0 (first :: rest)) ≤ budgetTokens ∨
      (selectLoop budgetTokens [] 0 (first :: rest) = [first] ∧ budgetTokens < first.chunk.estimatedTokens) := by
  rw [selectLoop, if_neg (by simp)]
  by_cases hlong : budgetTokens < first.chunk.estimatedTokens
  · exact .inr ⟨by simp [hlong], hlong⟩
  · have hloop := selectLoop_used budgetTokens rest [first] (by simp) (by
      rw [usedTokens_singleton]
      omega)
    rw [usedTokens_singleton] at hloop
    left
    rw [if_neg (by simp [hlong])]
    simpa using hloop

theorem ranking_perm : (ranking lower query chunks).Perm (chunks.zipIdx.map (scored lower query)) :=
  List.perm_insertionSort _ _

theorem scored_sorted (query : String) (chunks : List AttachmentChunk) :
    (chunks.zipIdx.map (scored lower query)).Pairwise (fun a b => a.index < b.index) := by
  have hsnd : Scored.index ∘ scored lower query = Prod.snd := rfl
  rw [← List.pairwise_map, List.map_map, hsnd, List.zipIdx_map_snd]
  exact List.pairwise_lt_range'

/-- The selected chunks are among all chunks, in the same order. -/
theorem selectChunks_sublist : (selectChunks lower chunks budgetTokens query).Sublist chunks := by
  unfold selectChunks
  split
  · exact List.Sublist.refl chunks
  · obtain ⟨taken, hsub, heq⟩ := selectLoop_taken budgetTokens (ranking lower query chunks) [] 0
    have hsubperm : (selectLoop budgetTokens [] 0 (ranking lower query chunks)).Subperm
        (chunks.zipIdx.map (scored lower query)) := by
      rw [heq, List.nil_append]
      exact hsub.subperm.trans ranking_perm.subperm
    have hsorted := (insertionSort_sublist hsubperm (scored_sorted query chunks)).map Scored.chunk
    have hchunk : Scored.chunk ∘ scored lower query = Prod.fst := rfl
    rwa [List.map_map, hchunk, List.zipIdx_map_fst] at hsorted

theorem totalTokens_sort (selected : List Scored) :
    totalTokens ((selected.insertionSort (fun a b => a.index ≤ b.index)).map Scored.chunk) =
      usedTokens selected := by
  have hperm := (List.perm_insertionSort (fun a b : Scored => a.index ≤ b.index) selected)
  exact ((hperm.map Scored.chunk).map AttachmentChunk.estimatedTokens).sum_nat

/-- A selection is within the budget, or it is the most relevant chunk alone. -/
theorem selectChunks_total (hsome : selectChunks lower chunks budgetTokens query ≠ []) :
    totalTokens (selectChunks lower chunks budgetTokens query) ≤ budgetTokens ∨
      ∃ first, (ranking lower query chunks).head? = some first ∧
        selectChunks lower chunks budgetTokens query = [first.chunk] ∧
          budgetTokens < first.chunk.estimatedTokens := by
  unfold selectChunks at *
  split
  · rename_i hfits
    exact .inl hfits
  · rename_i hlong
    rw [if_neg hlong] at hsome
    cases hranking : ranking lower query chunks with
    | nil =>
      rw [hranking] at hsome
      simp [selectLoop] at hsome
    | cons first rest =>
      rcases selectLoop_start budgetTokens first rest with hused | ⟨halone, hbudget⟩
      · left
        rwa [totalTokens_sort]
      · exact .inr ⟨first, rfl, by rw [halone]; rfl, hbudget⟩

end Selection

end Api
end Ds4Spark
