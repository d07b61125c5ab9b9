import Ds4Spark.Agent.ToolCalls
import Mathlib.Data.List.Basic

/-!
# Ds4Spark.Agent.Loop

`run_agent_loop`: ask the model, run the tool calls of its answer, ask again. The model is the sequence
of its answers, the registry what its n-th invocation comes to: a result, which may hold objects that have
no JSON text, or an exception that the registry does not catch.

* `handleCalls`, `loop`: the round and the loop, with the invocations made and the message lists the
  model was asked with kept beside the state.
* `Sound`: only allowed tools, within the limit, every invocation in the rounds that are returned, every
  call answered.
* `course`: the calls of the rounds that end, those before the point where a round breaks, and whether the
  run raises, by the answers, the results and the limits alone.
* `loop_sound`: the run is sound exactly when no call before a break is invoked, and none at all with an
  empty allow list or in a run that raises.
-/

namespace Ds4Spark
namespace Agent

/-- A result as `registry.invoke` returns it. -/
abbrev ToolResult := List (String × Value)

structure Config where
  env : Env
  response : Nat → JsonObj
  invoke : Nat → String → Json → Except Raised ToolResult
  allowedToolPrefixes : Option (List String)
  maxToolRounds : Int
  maxToolCalls : Int

namespace Config

/-- `allowed_tool_prefixes or ["tool:"]`. -/
def prefixes (cfg : Config) : List String :=
  match cfg.allowedToolPrefixes with
  | none | some [] => ["tool:"]
  | some entries => entries

/-- `call.tool_id.startswith(entry)` for one of the entries. -/
def startsWithAny (entries : List String) (toolId : String) : Bool :=
  entries.any (fun entry => entry.toList.isPrefixOf toolId.toList)

/-- The test of the loop. -/
def allows (cfg : Config) (call : ToolCall) : Bool := startsWithAny cfg.prefixes call.toolId

/-- The id starts with an entry of the list that was given; without one, the default counts. -/
def given (cfg : Config) (call : ToolCall) : Bool :=
  startsWithAny (cfg.allowedToolPrefixes.getD ["tool:"]) call.toolId

end Config

structure Invocation where
  call : ToolCall
  result : Except Raised ToolResult

structure Round where
  roundIndex : Nat
  toolCalls : List ToolCall
  toolResults : List ToolResult

structure LoopState where
  messages : List JsonObj
  rounds : List Round
  totalToolCalls : Nat
  invocations : List Invocation
  asked : List (List JsonObj)

def LoopState.start (messages : List JsonObj) : LoopState := ⟨messages, [], 0, [], []⟩

inductive Status where
  | completed | maxToolRoundsExceeded | maxToolCallsExceeded
deriving DecidableEq

inductive Outcome where
  | returned (status : Status) (finalMessage : Option JsonObj)
  | raised (e : Raised)

/-! ## One call -/

def Value.truthy : Value → Bool
  | .json v => v.truthy
  | .list items => !items.isEmpty
  | .dict fields => !fields.isEmpty
  | .object _ truth => truth

def ToolResult.get? (result : ToolResult) (key : String) : Option Value := result.lookup key

def deniedResult (toolId : String) : ToolResult :=
  [("format", .json (.str "ds4-tool-invocation-result-v1")), ("tool_id", .json (.str toolId)),
    ("ok", .json (.bool false)), ("error", .json (.str "tool_id denied by allowed_tool_prefixes"))]

/-- `_compact_tool_result`. -/
def compactToolResult (env : Env) (result : ToolResult) : Except Raised ToolResult :=
  if ((ToolResult.get? result "ok").getD (.json .null)).truthy then do
    let payload := (ToolResult.get? result "result").getD (.dict [])
    let text ← env.dumps payload
    if text.length > 4000 then
      .ok [("ok", .json (.bool true)), ("summary", .json (.str "tool result too large")),
        ("bytes", .json (.int text.length))]
    else .ok [("ok", .json (.bool true)), ("result", payload)]
  else
    .ok [("ok", .json (.bool false)), ("error", (ToolResult.get? result "error").getD (.json (.str "tool failed"))),
      ("result", (ToolResult.get? result "result").getD (.json .null))]

def toolMessage (env : Env) (call : ToolCall) (result : ToolResult) : Except Raised JsonObj := do
  let compact ← compactToolResult env result
  let content ← env.dumps (.dict compact)
  .ok [("role", .str "tool"), ("tool_call_id", .str call.callId), ("name", .str call.toolId),
    ("content", .str content)]

/-- An allowed call is the next invocation. -/
def resultOf (cfg : Config) (made : Nat) (call : ToolCall) : Except Raised ToolResult :=
  if cfg.allows call then cfg.invoke made call.toolId call.arguments else .ok (deniedResult call.toolId)

/-- The call is counted, and made if it is allowed. -/
def LoopState.call (cfg : Config) (s : LoopState) (call : ToolCall) : LoopState :=
  { s with
    totalToolCalls := s.totalToolCalls + 1
    invocations :=
      if cfg.allows call then s.invocations ++ [⟨call, resultOf cfg s.invocations.length call⟩]
      else s.invocations }

def LoopState.answer (s : LoopState) (message : JsonObj) : LoopState :=
  { s with messages := s.messages ++ [message] }

def Round.record (round : Round) (call : ToolCall) (result : ToolResult) : Round :=
  { round with toolCalls := round.toolCalls ++ [call], toolResults := round.toolResults ++ [result] }

/-- How the calls of one message end. -/
inductive RoundEnd where
  | ended (round : Round)
  | limit
  | raised (e : Raised)

/-- What a call leaves: its result, with the message that tells it, or an exception. -/
def answerOf (cfg : Config) (made : Nat) (call : ToolCall) : Except Raised (ToolResult × JsonObj) := do
  let result ← resultOf cfg made call
  let message ← toolMessage cfg.env call result
  .ok (result, message)

def handleCalls (cfg : Config) : List ToolCall → LoopState → Round → LoopState × RoundEnd
  | [], s, round => (s, .ended round)
  | call :: rest, s, round =>
    if (s.totalToolCalls + 1 : Nat) > cfg.maxToolCalls then
      ({ s with totalToolCalls := s.totalToolCalls + 1 }, .limit)
    else
      match answerOf cfg s.invocations.length call with
      | .error e => (s.call cfg call, .raised e)
      | .ok (result, message) => handleCalls cfg rest ((s.call cfg call).answer message) (round.record call result)

/-! ## The loop -/

/-- The model is asked with the messages so far, and its answer is one more. -/
def LoopState.ask (s : LoopState) (message : JsonObj) : LoopState :=
  { s with asked := s.asked ++ [s.messages], messages := s.messages ++ [message] }

/-- `left` passes of the loop, from `round_index` on. -/
def loop (cfg : Config) : Nat → Nat → LoopState → LoopState × Outcome
  | 0, _, s => (s, .raised ⟨"AssertionError", "unreachable"⟩)
  | left + 1, roundIndex, s =>
    let message := cfg.response roundIndex
    let s := s.ask message
    match extractToolCalls cfg.env message with
    | .error e => (s, .raised e)
    | .ok [] => (s, .returned .completed (some message))
    | .ok (call :: rest) =>
      if (roundIndex : Int) ≥ cfg.maxToolRounds then (s, .returned .maxToolRoundsExceeded none)
      else match handleCalls cfg (call :: rest) s ⟨roundIndex, [], []⟩ with
        | (s, .ended round) => loop cfg left (roundIndex + 1) { s with rounds := s.rounds ++ [round] }
        | (s, .limit) => (s, .returned .maxToolCallsExceeded none)
        | (s, .raised e) => (s, .raised e)

def runAgentLoop (cfg : Config) (initialMessages : List JsonObj) : LoopState × Outcome :=
  loop cfg (cfg.maxToolRounds + 1).toNat 0 (LoopState.start initialMessages)

/-! ## What a run has to do -/

/-- The calls with their results, as far as they are invocations. -/
def made (cfg : Config) (calls : List ToolCall) (results : List ToolResult) : List Invocation :=
  ((calls.zip results).filter (fun entry => cfg.allows entry.1)).map (fun entry => ⟨entry.1, .ok entry.2⟩)

/-- The calls in the rounds that were allowed, with the results recorded for them. -/
def recorded (cfg : Config) (rounds : List Round) : List Invocation :=
  rounds.flatMap (fun round => made cfg round.toolCalls round.toolResults)

/-- The rounds that the caller gets: an exception carries none. -/
def reported (out : LoopState × Outcome) : List Round :=
  match out.2 with
  | .returned _ _ => out.1.rounds
  | .raised _ => []

/-- The message tells a result of the call. -/
def Tells (cfg : Config) (call : ToolCall) (message : JsonObj) : Prop :=
  ∃ result, toolMessage cfg.env call result = .ok message

/-- The answer `k`, and one message for each call in it, in order. -/
def AnsweredAt (cfg : Config) (k : Nat) (before after : List JsonObj) : Prop :=
  ∃ calls messages, extractToolCalls cfg.env (cfg.response k) = .ok calls ∧
    List.Forall₂ (Tells cfg) calls messages ∧ after = before ++ cfg.response k :: messages

/-- The model is asked with what it was asked before, its answer, and a message per call. -/
def Answered (cfg : Config) (asked : List (List JsonObj)) : Prop :=
  ∀ k before after, asked[k]? = some before → asked[k + 1]? = some after → AnsweredAt cfg k before after

/-- A negative limit allows no invocation. -/
structure Sound (cfg : Config) (out : LoopState × Outcome) : Prop where
  allowed : ∀ v ∈ out.1.invocations, cfg.given v.call = true
  bounded : out.1.invocations.length ≤ cfg.maxToolCalls.toNat
  recorded : out.1.invocations = recorded cfg (reported out)
  answered : Answered cfg out.1.asked

/-! ## The course of a run, by the answers, the results and the limits alone -/

/-- The calls up to the one where a round breaks, and whether it raises; `none` when the round ends. `room`
calls are left up to the limit, and `n` invocations have been made. -/
def roundCut (cfg : Config) : Nat → Nat → List ToolCall → Option (List ToolCall × Bool)
  | _, _, [] => none
  | 0, _, _ :: _ => some ([], false)
  | room + 1, n, call :: rest =>
    match answerOf cfg n call with
    | .error _ => some ([call], true)
    | .ok _ =>
      (roundCut cfg room (if cfg.allows call then n + 1 else n) rest).map (fun c => (call :: c.1, c.2))

/-- The calls of the rounds that end, the calls up to the break of the last one, and whether the run raises. -/
structure Course where
  done : List ToolCall
  cut : List ToolCall
  raises : Bool

def courseFrom (cfg : Config) : Nat → Nat → Nat → Nat → Course
  | 0, _, _, _ => ⟨[], [], true⟩
  | left + 1, roundIndex, used, n =>
    match extractToolCalls cfg.env (cfg.response roundIndex) with
    | .error _ => ⟨[], [], true⟩
    | .ok [] => ⟨[], [], false⟩
    | .ok (call :: rest) =>
      if (roundIndex : Int) ≥ cfg.maxToolRounds then ⟨[], [], false⟩
      else match roundCut cfg (cfg.maxToolCalls.toNat - used) n (call :: rest) with
        | some (before, raises) => ⟨[], before, raises⟩
        | none =>
          let later := courseFrom cfg left (roundIndex + 1) (used + (call :: rest).length)
            (n + ((call :: rest).filter cfg.allows).length)
          { later with done := call :: rest ++ later.done }

def course (cfg : Config) : Course := courseFrom cfg (cfg.maxToolRounds + 1).toNat 0 0 0

/-- No call before a break is invoked; none at all with an empty list, or in a run that raises. -/
def Harmless (cfg : Config) : Prop :=
  (∀ call ∈ (course cfg).cut, cfg.allows call = false) ∧
    (cfg.allowedToolPrefixes = some [] ∨ (course cfg).raises = true →
      ∀ call ∈ (course cfg).done, cfg.allows call = false)

section Round

variable {cfg : Config}

theorem made_cons (call : ToolCall) (calls : List ToolCall) (result : ToolResult) (results : List ToolResult) :
    made cfg (call :: calls) (result :: results) =
      (if cfg.allows call then [⟨call, .ok result⟩] else []) ++ made cfg calls results := by
  unfold made
  rw [List.zip_cons_cons, List.filter_cons]
  by_cases hallow : cfg.allows call = true
  · simp [hallow]
  · simp [hallow]

/-- The calls of the invocations that some calls lead to are those that are allowed. -/
theorem calls_of_made {calls : List ToolCall} {results : List ToolResult} (h : results.length = calls.length) :
    (made cfg calls results).map Invocation.call = calls.filter cfg.allows := by
  have hfst : (calls.zip results).map Prod.fst = calls := List.map_fst_zip h.ge
  rw [made, List.map_map]
  conv_rhs => rw [← hfst, List.filter_map]
  rfl

/-- An answered call has a result, and the message tells it. -/
theorem answerOf_ok {n : Nat} {call : ToolCall} {result : ToolResult} {message : JsonObj}
    (h : answerOf cfg n call = .ok (result, message)) :
    resultOf cfg n call = .ok result ∧ toolMessage cfg.env call result = .ok message := by
  unfold answerOf at h
  cases hresult : resultOf cfg n call with
  | error e =>
    rw [hresult] at h
    cases h
  | ok r =>
    rw [hresult] at h
    cases hmessage : toolMessage cfg.env call r with
    | error e =>
      simp only [bind, Except.bind, hmessage] at h
      cases h
    | ok m =>
      simp only [bind, Except.bind, hmessage] at h
      cases h
      exact ⟨rfl, hmessage⟩

/-- What handling some calls one after another leads to. -/
structure Handled (cfg : Config) (calls : List ToolCall) (s s' : LoopState) (results : List ToolResult)
    (messages : List JsonObj) : Prop where
  length : results.length = calls.length
  tells : List.Forall₂ (Tells cfg) calls messages
  messages : s'.messages = s.messages ++ messages
  invocations : s'.invocations = s.invocations ++ made cfg calls results
  total : s'.totalToolCalls = s.totalToolCalls + calls.length
  rounds : s'.rounds = s.rounds
  asked : s'.asked = s.asked

theorem handled_nil (s : LoopState) : Handled cfg [] s s [] [] := by
  constructor <;> simp [made]

theorem call_invocations {s : LoopState} {call : ToolCall} :
    (s.call cfg call).invocations = s.invocations ++
      (if cfg.allows call then [⟨call, resultOf cfg s.invocations.length call⟩] else []) := by
  unfold LoopState.call
  dsimp only
  split <;> simp

theorem handled_cons {call : ToolCall} {rest : List ToolCall} {s s' : LoopState} {result : ToolResult}
    {results : List ToolResult} {message : JsonObj} {messages : List JsonObj}
    (hanswer : answerOf cfg s.invocations.length call = .ok (result, message))
    (h : Handled cfg rest ((s.call cfg call).answer message) s' results messages) :
    Handled cfg (call :: rest) s s' (result :: results) (message :: messages) where
  length := by rw [List.length_cons, List.length_cons, h.length]
  tells := .cons ⟨result, (answerOf_ok hanswer).2⟩ h.tells
  messages := by
    rw [h.messages]
    simp [LoopState.answer, LoopState.call]
  invocations := by
    rw [h.invocations, made_cons, LoopState.answer, call_invocations, (answerOf_ok hanswer).1, List.append_assoc]
  total := by
    rw [h.total]
    simp only [LoopState.answer, LoopState.call, List.length_cons]
    omega
  rounds := h.rounds
  asked := h.asked

/-- The room and the invocations that are left for the calls after this one. -/
theorem after_call {s : LoopState} {call : ToolCall} {message : JsonObj} {room : Nat}
    (hroom : cfg.maxToolCalls.toNat - s.totalToolCalls = room + 1) :
    cfg.maxToolCalls.toNat - ((s.call cfg call).answer message).totalToolCalls = room ∧
      ((s.call cfg call).answer message).invocations.length =
        if cfg.allows call then s.invocations.length + 1 else s.invocations.length := by
  refine ⟨?_, ?_⟩
  · show cfg.maxToolCalls.toNat - (s.totalToolCalls + 1) = room
    omega
  · rw [LoopState.answer, call_invocations]
    split <;> simp

/-- A message whose calls are not cut is handled and recorded as a whole. -/
theorem handleCalls_ended {calls : List ToolCall} {s : LoopState} {round : Round}
    (h : roundCut cfg (cfg.maxToolCalls.toNat - s.totalToolCalls) s.invocations.length calls = none) :
    ∃ s' results messages, handleCalls cfg calls s round =
        (s', .ended { round with toolCalls := round.toolCalls ++ calls,
                                 toolResults := round.toolResults ++ results }) ∧
      Handled cfg calls s s' results messages := by
  induction calls generalizing s round with
  | nil => exact ⟨s, [], [], by simp [handleCalls], handled_nil s⟩
  | cons call rest ih =>
    cases hroom : cfg.maxToolCalls.toNat - s.totalToolCalls with
    | zero =>
      rw [hroom] at h
      cases h
    | succ room =>
      rw [hroom, roundCut] at h
      cases hanswer : answerOf cfg s.invocations.length call with
      | error e =>
        rw [hanswer] at h
        cases h
      | ok answer =>
        obtain ⟨result, message⟩ := answer
        simp only [hanswer, Option.map_eq_none_iff] at h
        obtain ⟨hleft, hmade⟩ := @after_call _ _ call message _ hroom
        rw [← hleft, ← hmade] at h
        obtain ⟨s', results, messages, hrun, hhandled⟩ := @ih _ (round.record call result) h
        refine ⟨s', result :: results, message :: messages, ?_, handled_cons hanswer hhandled⟩
        rw [handleCalls, if_neg (by omega)]
        simp only [hanswer, hrun]
        simp [Round.record]

/-- What a break leaves: the invocations before it, which no round has. -/
structure Stopped (cfg : Config) (before : List ToolCall) (s s' : LoopState) : Prop where
  invocations : ∃ extra, s'.invocations = s.invocations ++ extra ∧
    extra.map Invocation.call = before.filter cfg.allows
  rounds : s'.rounds = s.rounds
  asked : s'.asked = s.asked

theorem stopped_cons {call : ToolCall} {before : List ToolCall} {s s' : LoopState} {message : JsonObj}
    (h : Stopped cfg before ((s.call cfg call).answer message) s') : Stopped cfg (call :: before) s s' where
  invocations := by
    obtain ⟨extra, hinvocations, hextra⟩ := h.invocations
    rw [LoopState.answer, call_invocations, List.append_assoc] at hinvocations
    refine ⟨_, hinvocations, ?_⟩
    rw [List.map_append, hextra, List.filter_cons]
    split <;> simp
  rounds := h.rounds
  asked := h.asked

/-- A message whose calls are cut is handled up to the cut, by the limit or by an exception. -/
theorem handleCalls_stops {calls before : List ToolCall} {raises : Bool} {s : LoopState} {round : Round}
    (h : roundCut cfg (cfg.maxToolCalls.toNat - s.totalToolCalls) s.invocations.length calls =
      some (before, raises)) :
    before.length ≤ cfg.maxToolCalls.toNat - s.totalToolCalls ∧
      ∃ s' stop, handleCalls cfg calls s round = (s', stop) ∧ Stopped cfg before s s' ∧
        ((raises = false ∧ stop = .limit) ∨ raises = true ∧ ∃ e, stop = .raised e) := by
  induction calls generalizing s round before with
  | nil => simp [roundCut] at h
  | cons call rest ih =>
    cases hroom : cfg.maxToolCalls.toNat - s.totalToolCalls with
    | zero =>
      rw [hroom, roundCut] at h
      cases h
      refine ⟨le_rfl, { s with totalToolCalls := s.totalToolCalls + 1 }, .limit, ?_, ?_, .inl ⟨rfl, rfl⟩⟩
      · rw [handleCalls, if_pos (by omega)]
      · exact ⟨⟨[], by simp, rfl⟩, rfl, rfl⟩
    | succ room =>
      rw [hroom, roundCut] at h
      have hwithin : ¬ ((s.totalToolCalls + 1 : Nat) : Int) > cfg.maxToolCalls := by omega
      cases hanswer : answerOf cfg s.invocations.length call with
      | error e =>
        simp only [hanswer] at h
        cases h
        refine ⟨by simp, s.call cfg call, .raised e, ?_, ?_, .inr ⟨rfl, e, rfl⟩⟩
        · rw [handleCalls, if_neg hwithin, hanswer]
        · refine ⟨⟨_, call_invocations, ?_⟩, rfl, rfl⟩
          rw [List.filter_cons]
          split <;> simp
      | ok answer =>
        obtain ⟨result, message⟩ := answer
        simp only [hanswer, Option.map_eq_some_iff] at h
        obtain ⟨⟨later, raises'⟩, hlater, heq⟩ := h
        cases heq
        obtain ⟨hleft, hmade⟩ := @after_call _ _ call message _ hroom
        rw [← hleft, ← hmade] at hlater
        obtain ⟨hlength, s', stop, hrun, hstopped, hstop⟩ := @ih _ _ (round.record call result) hlater
        rw [hleft] at hlength
        refine ⟨by simpa using hlength, s', stop, ?_, stopped_cons hstopped, hstop⟩
        rw [handleCalls, if_neg hwithin]
        simp only [hanswer, hrun]

theorem length_of_not_cut {calls : List ToolCall} : ∀ {room n : Nat}, roundCut cfg room n calls = none →
    calls.length ≤ room := by
  induction calls with
  | nil => exact fun _ => Nat.zero_le _
  | cons call rest ih =>
    intro room n h
    cases room with
    | zero => cases h
    | succ room =>
      rw [roundCut] at h
      cases hanswer : answerOf cfg n call with
      | error e =>
        rw [hanswer] at h
        cases h
      | ok answer =>
        simp only [hanswer, Option.map_eq_none_iff] at h
        exact Nat.succ_le_succ (ih h)

end Round

section Loop

variable {cfg : Config}

/-- The state in which pass `i` of the loop begins. -/
structure Ready (cfg : Config) (i : Nat) (s : LoopState) : Prop where
  count : s.asked.length = i
  answered : Answered cfg s.asked
  last : ∀ k before, k + 1 = i → s.asked[k]? = some before → AnsweredAt cfg k before s.messages
  used : s.totalToolCalls ≤ cfg.maxToolCalls.toNat
  few : s.invocations.length ≤ s.totalToolCalls
  recorded : s.invocations = recorded cfg s.rounds

/-- How the passes from `s` end, for the course they take. -/
structure Ended (cfg : Config) (s : LoopState) (c : Course) (out : LoopState × Outcome) : Prop where
  answered : Answered cfg out.1.asked
  bounded : out.1.invocations.length ≤ cfg.maxToolCalls.toNat
  calls : out.1.invocations.map Invocation.call =
    s.invocations.map Invocation.call ++ (c.done ++ c.cut).filter cfg.allows
  unrecorded : ∃ extra, out.1.invocations = Agent.recorded cfg out.1.rounds ++ extra ∧
    extra.map Invocation.call = c.cut.filter cfg.allows
  rounds : reported out = if c.raises then [] else out.1.rounds

theorem ready_start (messages : List JsonObj) : Ready cfg 0 (LoopState.start messages) where
  count := rfl
  answered := by
    intro k before after hbefore
    simp [LoopState.start] at hbefore
  last := by
    intro k before hk
    cases hk
  used := Nat.zero_le _
  few := le_rfl
  recorded := rfl

/-- Asking the model keeps the law of the messages. -/
theorem Ready.asked {i : Nat} {s : LoopState} (h : Ready cfg i s) :
    Answered cfg (s.asked ++ [s.messages]) := by
  intro k before after hbefore hafter
  rcases Nat.lt_trichotomy (k + 1) s.asked.length with hlt | heq | hgt
  · rw [List.getElem?_append_left (by omega)] at hbefore
    rw [List.getElem?_append_left hlt] at hafter
    exact h.answered k before after hbefore hafter
  · rw [List.getElem?_append_left (by omega)] at hbefore
    rw [heq, List.getElem?_concat_length, Option.some.injEq] at hafter
    rw [← hafter]
    exact h.last k before (by rw [heq, h.count]) hbefore
  · rw [List.getElem?_eq_none (by simp; omega)] at hafter
    cases hafter

/-- A pass that ends the loop without handling a call. -/
theorem Ready.ended {i : Nat} {s : LoopState} {raises : Bool} {o : Outcome} (h : Ready cfg i s)
    (message : JsonObj) (hrounds : reported (s.ask message, o) = if raises then [] else s.rounds) :
    Ended cfg s ⟨[], [], raises⟩ (s.ask message, o) where
  answered := h.asked
  bounded := h.few.trans h.used
  calls := by simp [LoopState.ask]
  unrecorded := ⟨[], by simpa [LoopState.ask] using h.recorded, rfl⟩
  rounds := hrounds

/-- A round that ends leaves the loop ready for the next pass. -/
theorem Ready.next {i : Nat} {s s' : LoopState} {calls : List ToolCall} {results : List ToolResult}
    {messages : List JsonObj} (h : Ready cfg i s)
    (hcalls : extractToolCalls cfg.env (cfg.response i) = .ok calls)
    (hfits : calls.length ≤ cfg.maxToolCalls.toNat - s.totalToolCalls)
    (hh : Handled cfg calls (s.ask (cfg.response i)) s' results messages) :
    Ready cfg (i + 1) { s' with rounds := s'.rounds ++ [⟨i, calls, results⟩] } where
  count := by
    show s'.asked.length = i + 1
    rw [hh.asked, LoopState.ask, List.length_append, List.length_singleton, h.count]
  answered := by
    show Answered cfg s'.asked
    rw [hh.asked]
    exact h.asked
  last := by
    intro k before hk hbefore
    obtain rfl : k = i := by omega
    rw [hh.asked, LoopState.ask, ← h.count, List.getElem?_concat_length, Option.some.injEq] at hbefore
    refine ⟨calls, messages, hcalls, hh.tells, ?_⟩
    show s'.messages = _
    rw [hh.messages, LoopState.ask, ← hbefore, List.append_assoc, List.singleton_append]
  used := by
    show s'.totalToolCalls ≤ _
    rw [hh.total]
    show s.totalToolCalls + calls.length ≤ _
    have hused := h.used
    omega
  few := by
    show s'.invocations.length ≤ s'.totalToolCalls
    have hle := List.length_filter_le cfg.allows calls
    rw [← calls_of_made hh.length, List.length_map] at hle
    rw [hh.invocations, hh.total, List.length_append]
    have hfew : (s.ask (cfg.response i)).invocations.length ≤ (s.ask (cfg.response i)).totalToolCalls := h.few
    omega
  recorded := by
    show s'.invocations = _
    rw [hh.rounds, hh.invocations]
    show s.invocations ++ _ = Agent.recorded cfg (s.rounds ++ _)
    rw [h.recorded]
    simp [Agent.recorded]

theorem Ended.prepend {s₁ s₂ : LoopState} {calls : List ToolCall} {results : List ToolResult}
    {c : Course} {out : LoopState × Outcome} (hend : Ended cfg s₂ c out)
    (hlength : results.length = calls.length)
    (hinvocations : s₂.invocations = s₁.invocations ++ made cfg calls results) :
    Ended cfg s₁ { c with done := calls ++ c.done } out where
  answered := hend.answered
  bounded := hend.bounded
  calls := by
    rw [hend.calls, hinvocations, List.map_append, calls_of_made hlength]
    simp
  unrecorded := hend.unrecorded
  rounds := hend.rounds

/-- A round that breaks: what it has invoked is in no round. -/
theorem Ready.stops {i : Nat} {s s' : LoopState} {before : List ToolCall} {raises : Bool} {o : Outcome}
    (h : Ready cfg i s) (hlength : before.length ≤ cfg.maxToolCalls.toNat - s.totalToolCalls)
    (hs : Stopped cfg before (s.ask (cfg.response i)) s')
    (hrounds : reported (s', o) = if raises then [] else s'.rounds) :
    Ended cfg s ⟨[], before, raises⟩ (s', o) := by
  obtain ⟨extra, hinvocations, hextra⟩ := hs.invocations
  have hcalls : s'.invocations.map Invocation.call =
      s.invocations.map Invocation.call ++ before.filter cfg.allows := by
    rw [hinvocations, List.map_append, hextra]
    rfl
  refine ⟨?_, ?_, hcalls, ⟨extra, ?_, hextra⟩, hrounds⟩
  · show Answered cfg s'.asked
    rw [hs.asked]
    exact h.asked
  · have hsize := congrArg List.length hcalls
    have hle := List.length_filter_le cfg.allows before
    rw [List.length_append, List.length_map, List.length_map] at hsize
    have hfew := h.few
    have hused := h.used
    show s'.invocations.length ≤ _
    omega
  · show s'.invocations = Agent.recorded cfg s'.rounds ++ extra
    rw [hs.rounds, hinvocations]
    show s.invocations ++ extra = Agent.recorded cfg s.rounds ++ extra
    rw [h.recorded]

theorem loop_ended (left : Nat) : ∀ {i : Nat} {s : LoopState}, Ready cfg i s →
    Ended cfg s (courseFrom cfg left i s.totalToolCalls s.invocations.length) (loop cfg left i s) := by
  induction left with
  | zero =>
    intro i s h
    exact ⟨h.answered, h.few.trans h.used, by simp [courseFrom, loop],
      ⟨[], by simpa [loop] using h.recorded, rfl⟩, rfl⟩
  | succ left ih =>
    intro i s h
    rw [loop, courseFrom]
    dsimp only
    cases hcalls : extractToolCalls cfg.env (cfg.response i) with
    | error e => exact h.ended _ rfl
    | ok calls =>
      cases calls with
      | nil => exact h.ended _ rfl
      | cons call rest =>
        by_cases hrounds : (i : Int) ≥ cfg.maxToolRounds
        · simp only [if_pos hrounds]
          exact h.ended _ rfl
        · simp only [if_neg hrounds]
          cases hcut : roundCut cfg (cfg.maxToolCalls.toNat - s.totalToolCalls) s.invocations.length
              (call :: rest) with
          | some cut =>
            obtain ⟨before, raises⟩ := cut
            obtain ⟨hlength, s', stop, hrun, hstopped, hstop⟩ :=
              @handleCalls_stops _ _ _ _ (s.ask (cfg.response i)) ⟨i, [], []⟩ hcut
            rcases hstop with ⟨rfl, rfl⟩ | ⟨rfl, e, rfl⟩
            · simp only [hrun]
              exact h.stops hlength hstopped rfl
            · simp only [hrun]
              exact h.stops hlength hstopped rfl
          | none =>
            obtain ⟨s', results, messages, hrun, hh⟩ :=
              @handleCalls_ended _ _ (s.ask (cfg.response i)) ⟨i, [], []⟩ hcut
            simp only [hrun, List.nil_append]
            have hend := ih (h.next hcalls (length_of_not_cut hcut) hh)
            have htotal : s'.totalToolCalls = s.totalToolCalls + (call :: rest).length := hh.total
            have hmade : s'.invocations.length = s.invocations.length + ((call :: rest).filter cfg.allows).length := by
              rw [hh.invocations, List.length_append, ← calls_of_made hh.length, List.length_map]
              rfl
            rw [← htotal, ← hmade]
            exact Ended.prepend hend hh.length hh.invocations

theorem allows_eq_given (h : cfg.allowedToolPrefixes ≠ some []) (call : ToolCall) :
    cfg.allows call = cfg.given call := by
  unfold Config.allows Config.given Config.prefixes
  split
  · rename_i hnone
    rw [hnone]
    rfl
  · rename_i hempty
    exact absurd hempty h
  · rename_i entries _ hentries
    rw [hentries]
    rfl

theorem filter_allows_eq_nil {calls : List ToolCall} :
    calls.filter cfg.allows = [] ↔ ∀ call ∈ calls, cfg.allows call = false := by
  simp [List.filter_eq_nil_iff]

/-- The loop invokes only tools of the given list, at most `max_tool_calls` times, records every
invocation in the rounds it returns and answers every call, exactly when no allowed call stands before a
break of a round, and none at all is handled with an empty list or in a run that raises. -/
theorem loop_sound (cfg : Config) (initialMessages : List JsonObj) :
    Sound cfg (runAgentLoop cfg initialMessages) ↔ Harmless cfg := by
  have hend : Ended cfg (LoopState.start initialMessages) (course cfg) (runAgentLoop cfg initialMessages) :=
    loop_ended _ (ready_start initialMessages)
  generalize runAgentLoop cfg initialMessages = out at hend
  unfold Harmless
  generalize course cfg = c at hend
  have hcalls : out.1.invocations.map Invocation.call = (c.done ++ c.cut).filter cfg.allows := hend.calls
  obtain ⟨extra, hsplit, hextra⟩ := hend.unrecorded
  have hrounds := hend.rounds
  have hnone : out.1.invocations = [] →
      (∀ call ∈ c.cut, cfg.allows call = false) ∧ ∀ call ∈ c.done, cfg.allows call = false := by
    intro hnone
    rw [hnone, List.map_nil] at hcalls
    have hall := filter_allows_eq_nil.mp hcalls.symm
    exact ⟨fun call hcall => hall call (List.mem_append_right _ hcall),
      fun call hcall => hall call (List.mem_append_left _ hcall)⟩
  constructor
  · intro h
    have hrecorded := h.recorded
    have hempty : cfg.allowedToolPrefixes = some [] → out.1.invocations = [] := by
      intro hempty
      apply List.eq_nil_iff_forall_not_mem.mpr
      intro v hv
      have hgiven := h.allowed v hv
      rw [Config.given, hempty] at hgiven
      simp [Config.startsWithAny] at hgiven
    cases hraises : c.raises with
    | true =>
      -- an exception carries no rounds, so nothing was invoked
      rw [hrounds, hraises, if_pos rfl] at hrecorded
      obtain ⟨hcut, hdone⟩ := hnone hrecorded
      exact ⟨hcut, fun _ => hdone⟩
    | false =>
      rw [hrounds, hraises, if_neg Bool.false_ne_true, hsplit] at hrecorded
      have hextra' : extra = [] := by simpa using hrecorded
      rw [hextra', List.map_nil] at hextra
      refine ⟨filter_allows_eq_nil.mp hextra.symm, ?_⟩
      rintro (hlist | hraised)
      · exact (hnone (hempty hlist)).2
      · cases hraised
  · rintro ⟨hcut, hdone⟩
    have hextra' : extra = [] := by
      rw [filter_allows_eq_nil.mpr hcut] at hextra
      exact List.map_eq_nil_iff.mp hextra
    rw [hextra', List.append_nil] at hsplit
    have hinvoked : cfg.allowedToolPrefixes = some [] ∨ c.raises = true → out.1.invocations = [] := by
      intro hstrict
      rw [List.filter_append, filter_allows_eq_nil.mpr hcut, filter_allows_eq_nil.mpr (hdone hstrict)] at hcalls
      exact List.map_eq_nil_iff.mp hcalls
    refine ⟨?_, hend.bounded, ?_, hend.answered⟩
    · intro v hv
      have hlist : cfg.allowedToolPrefixes ≠ some [] := by
        intro hlist
        rw [hinvoked (.inl hlist)] at hv
        cases hv
      have hmem : v.call ∈ (c.done ++ c.cut).filter cfg.allows := hcalls ▸ List.mem_map_of_mem hv
      rw [← allows_eq_given hlist]
      exact (List.mem_filter.mp hmem).2
    · rw [hrounds]
      cases hraises : c.raises with
      | true =>
        rw [hinvoked (.inr hraises)]
        rfl
      | false => exact hsplit

end Loop

/-! ## Runs -/

mutual

/-- The JSON value that `json.dumps` writes, if there is one. -/
def Value.toJson? : Value → Except String Json
  | .json v => .ok v
  | .list items => (toJsonItems? items).map .arr
  | .dict fields => (toJsonFields? fields).map .obj
  | .object typeName _ => .error typeName

def toJsonItems? : List Value → Except String (List Json)
  | [] => .ok []
  | v :: items => do
    let v ← v.toJson?
    let items ← toJsonItems? items
    .ok (v :: items)

def toJsonFields? : List (String × Value) → Except String JsonObj
  | [] => .ok []
  | (key, v) :: fields => do
    let v ← v.toJson?
    let fields ← toJsonFields? fields
    .ok ((key, v) :: fields)

end

def plainDumps (value : Value) : Except Raised String :=
  match value.toJson? with
  | .ok v => .ok v.dumps
  | .error typeName => .error ⟨"TypeError", "Object of type " ++ typeName ++ " is not JSON serializable"⟩

/-- An answer with a call of each of the tools. -/
def callsOf (toolIds : List String) : JsonObj :=
  [("role", .str "assistant"), ("tool_calls", .arr (toolIds.map (fun toolId =>
    .obj [("function", .obj [("name", .str toolId)])])))]

/-- The model first calls two tools, then answers; each tool gives back `{"x": value}`. -/
def twoCalls (allowedToolPrefixes : Option (List String)) (maxToolCalls : Int) (value : Value) : Config where
  env := ⟨fun _ => .decodeError, plainDumps⟩
  response := fun n => if n = 0 then callsOf ["tool:a", "tool:b"] else [("content", .str "done")]
  invoke := fun _ _ _ => .ok [("ok", .json (.bool true)), ("result", .dict [("x", value)])]
  allowedToolPrefixes := allowedToolPrefixes
  maxToolRounds := 6
  maxToolCalls := maxToolCalls

/-- An empty allow list lets both tools run; a limit of one call leaves the one invocation out of the
rounds, and so does a result with a set in it, which has no JSON text. -/
theorem loop_not_sound :
    ¬ Sound (twoCalls (some []) 20 (.json .null)) (runAgentLoop (twoCalls (some []) 20 (.json .null)) []) ∧
    ¬ Sound (twoCalls none 1 (.json .null)) (runAgentLoop (twoCalls none 1 (.json .null)) []) ∧
    ¬ Sound (twoCalls none 20 (.object "set" false)) (runAgentLoop (twoCalls none 20 (.object "set" false)) []) := by
  refine ⟨fun h => ?_, fun h => ?_, fun h => ?_⟩
  · have hall : (runAgentLoop (twoCalls (some []) 20 (.json .null)) []).1.invocations.all
        (fun v => (twoCalls (some []) 20 (.json .null)).given v.call) = false := by
      decide +kernel
    rw [List.all_eq_true.mpr h.allowed] at hall
    cases hall
  · have hlength := congrArg List.length h.recorded
    revert hlength
    decide +kernel
  · have hlength := congrArg List.length h.recorded
    revert hlength
    decide +kernel

end Agent

end Ds4Spark
