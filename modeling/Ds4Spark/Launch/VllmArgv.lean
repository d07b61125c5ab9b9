import Ds4Spark.Baker.EngineLock
import Ds4Spark.Lib.Argv
import Ds4Spark.Lib.Traverse
import Ds4Spark.Pipeline.StorageUri

/-!
# Ds4Spark.Launch.VllmArgv

The command line of a vLLM rank (`_vllm_argv`): what the planner writes for a deployment, and the extra arguments
of the deployment without the options that the planner has written (`_dedupe_args`).

* `plannedArgv`, `vllmArgv`: the two parts, and `--headless` for the ranks that serve no requests.
* `dedupeArgs_render`: a dropped option loses its flag and one value; the rest of it stays.
* `PlannedWins`: the planner's options as the planner wrote them, all others as the extra arguments have them.
* `vllm_argv_iff`: exactly when no extra argument for a planner's option has its value attached or more values
  than one.

`json.dumps(x, sort_keys=True)` is a parameter.
-/

namespace Ds4Spark
namespace Launch

open Argv (Opt lead groups render)
open Baker (isFlag)
open Pipeline (replaceFrom occurs)
open Queue (Error raiseIf)

/-! ## The deployment -/

structure KvCacheConnector where
  connectorId : String
  kvConnector : String
  kvRole : String
  kvConnectorModulePath : Option String
  kvConnectorExtraConfig : JsonObj

/-- What `_vllm_argv` reads of a deployment. -/
structure KvCacheDeployment where
  sparkNode : String
  modelId : String
  modelIdByRank : List (Int × String)
  servedModelName : Option String
  host : String
  httpPort : Int
  tensorParallelSize : Int
  pipelineParallelSize : Int
  maxBatchSize : Option Int
  masterAddr : Option String
  masterPort : Option Int
  vllmBin : String
  vllmSourceRoot : Option String
  vllmRunner : Option String
  extraArgs : List String
  textOnly : Bool

structure FabricNode where
  fabricHost : String
  fabricIp : String

def KvCacheDeployment.isPipeline (d : KvCacheDeployment) : Bool := d.pipelineParallelSize > 1

/-- A text that is there and not empty. -/
def given (text : Option String) : Option String := text.filter (· ≠ "")

/-- `kv_transfer_config`; no config is the empty dict. -/
def kvTransferConfig (connector : KvCacheConnector) : Option JsonObj :=
  if connector.connectorId = "none" ∨ connector.kvConnector = "" then none
  else some ([("kv_connector", .str connector.kvConnector), ("kv_role", .str connector.kvRole)] ++
    ((given connector.kvConnectorModulePath).map fun path => ("kv_connector_module_path", Json.str path)).toList ++
    if connector.kvConnectorExtraConfig.isEmpty then []
    else [("kv_connector_extra_config", .obj connector.kvConnectorExtraConfig)])

/-! ## The command line -/

/-- The placeholders, in the order in which they are replaced. -/
def templateValues (sparkNode : String) (nodeRank : Int) (fabricNode : Option FabricNode) : List (String × String) := [
  ("\x7bnode\x7d", sparkNode),
  ("\x7bspark_node\x7d", sparkNode),
  ("\x7bnode_rank\x7d", toString nodeRank),
  ("\x7brank\x7d", toString nodeRank),
  ("\x7bfabric_host\x7d", (fabricNode.map FabricNode.fabricHost).getD ""),
  ("\x7bfabric_ip\x7d", (fabricNode.map FabricNode.fabricIp).getD "")]

def replaceAll (values : List (String × String)) (text : List Char) : List Char :=
  values.foldl (fun text kv => replaceFrom kv.1.toList kv.2.toList 0 text) text

/-- `_expand_rank_template`. -/
def expandRankTemplate (sparkNode : String) (nodeRank : Int) (fabricNode : Option FabricNode) (value : String) :
    Except Error String := do
  raiseIf ((occurs "\x7bfabric_ip\x7d".toList value.toList || occurs "\x7bfabric_host\x7d".toList value.toList) = true ∧
    fabricNode.isNone = true) "fabric topology is required to expand fabric templates"
  .ok (String.ofList (replaceAll (templateValues sparkNode nodeRank fabricNode) value.toList))

/-- `Path(text).name`. -/
def pathName (text : String) : List Char := ((Path.parts text.toList).getLast?).getD []

section Argv

variable (dumps : JsonObj → String) (d : KvCacheDeployment) (connector : KvCacheConnector) (nodeRank : Int)
  (sparkNode : Option String) (fabricNode : Option FabricNode)

/-- The template with the node, the rank and the fabric address of the call. -/
def expand (value : String) : Except Error String :=
  expandRankTemplate ((given sparkNode).getD d.sparkNode) nodeRank fabricNode value

/-- `_vllm_serve_prefix`. -/
def vllmServePrefix (vllmBin : String) : Except Error (List String) :=
  match given d.vllmRunner with
  | some runner => do
    match given d.vllmSourceRoot with
    | none => .error (.valueError "vllm_runner requires vllm_source_root")
    | some sourceRoot => do
      let runner ← expand d nodeRank sparkNode fabricNode runner
      let sourceRoot ← expand d nodeRank sparkNode fabricNode sourceRoot
      .ok [vllmBin, runner, "--source-root", sourceRoot, "--module", "vllm.entrypoints.cli.main", "--", "serve"]
  | none =>
    if "python".toList.isPrefixOf (pathName vllmBin) then .ok [vllmBin, "-m", "vllm.entrypoints.cli.main", "serve"]
    else .ok [vllmBin, "serve"]

/-- The address, which only the rank that serves requests has. -/
def addressArgs : List String :=
  if d.isPipeline = false ∨ nodeRank = 0 then ["--host", d.host, "--port", toString d.httpPort] else []

def pipelineArgs : List String :=
  if d.isPipeline then [
    "--pipeline-parallel-size", toString d.pipelineParallelSize,
    "--nnodes", toString d.pipelineParallelSize,
    "--node-rank", toString nodeRank,
    "--master-addr", (given d.masterAddr).getD d.sparkNode,
    "--master-port", toString ((d.masterPort.filter (· ≠ 0)).getD 29500)]
  else []

def transferArgs : List String :=
  match kvTransferConfig connector with
  | none => []
  | some config => ["--kv-transfer-config", dumps config]

def servedArgs : Except Error (List String) :=
  match given d.servedModelName with
  | none => .ok []
  | some name => (expand d nodeRank sparkNode fabricNode name).map fun name => ["--served-model-name", name]

/-- `argv` before the extra arguments. -/
def plannedArgv : Except Error (List String) := do
  let vllmBin ← expand d nodeRank sparkNode fabricNode d.vllmBin
  let modelId ← expand d nodeRank sparkNode fabricNode ((d.modelIdByRank.lookup nodeRank).getD d.modelId)
  let serve ← vllmServePrefix d nodeRank sparkNode fabricNode vllmBin
  let served ← servedArgs d nodeRank sparkNode fabricNode
  .ok (serve ++ [modelId] ++ addressArgs d nodeRank ++
    ["--tensor-parallel-size", toString d.tensorParallelSize] ++ pipelineArgs d nodeRank ++
    transferArgs dumps connector ++ served ++ (if d.textOnly then ["--language-model-only"] else []) ++
    (d.maxBatchSize.map fun size => ["--max-num-seqs", toString size]).getD [])

/-- `extra_args`, with the templates filled in. -/
def expandedExtraArgs : Except Error (List String) := d.extraArgs.mapM (expand d nodeRank sparkNode fabricNode)

end Argv

/-- The loop of `_dedupe_args`; the flag is `skip_next`. -/
def dedupeLoop (present : List String) : Bool → List String → List String
  | _, [] => []
  | true, _ :: rest => dedupeLoop present false rest
  | false, item :: rest =>
    if isFlag item = true ∧ item ∈ present then
      dedupeLoop present (rest.head?.any fun next => !isFlag next) rest
    else item :: dedupeLoop present false rest

/-- `_dedupe_args`. -/
def dedupeArgs (extraArgs present : List String) : List String := dedupeLoop present false extraArgs

/-- What is added for a rank that serves no requests. -/
def headlessArgs (d : KvCacheDeployment) (nodeRank : Int) (argv : List String) : List String :=
  if d.isPipeline = true ∧ nodeRank ≠ 0 ∧ "--headless" ∉ argv then ["--headless"] else []

/-- `_vllm_argv`. -/
def vllmArgv (dumps : JsonObj → String) (d : KvCacheDeployment) (connector : KvCacheConnector) (nodeRank : Int)
    (sparkNode : Option String) (fabricNode : Option FabricNode) : Except Error (List String) := do
  let planned ← plannedArgv dumps d connector nodeRank sparkNode fabricNode
  let extraArgs ← expandedExtraArgs d nodeRank sparkNode fabricNode
  let argv := planned ++ dedupeArgs extraArgs (planned.filter isFlag)
  .ok (argv ++ headlessArgs d nodeRank argv)

/-! ## What is left of the extra arguments -/

section Dedupe

variable {present : List String} {gs : List (Opt String)}

theorem dedupeLoop_words {words : List String} (h : ∀ w ∈ words, isFlag w = false) (rest : List String) :
    dedupeLoop present false (words ++ rest) = words ++ dedupeLoop present false rest := by
  induction words with
  | nil => rfl
  | cons w words ih =>
    have hw := h w List.mem_cons_self
    rw [List.cons_append, dedupeLoop, if_neg (by simp [hw]), ih fun v hv => h v (List.mem_cons_of_mem _ hv)]
    rfl

/-- The tokens of a group that stay: all of them, or all values but the first. -/
def leftover (present : List String) (g : Opt String) : List String :=
  if g.flag ∈ present then g.words.tail else g.tokens

theorem dedupeArgs_render (h : ∀ g ∈ gs, g.Formed isFlag) :
    dedupeArgs (render gs) present = gs.flatMap (leftover present) := by
  induction gs with
  | nil => rfl
  | cons g gs ih =>
    obtain ⟨hg, hgs⟩ := List.forall_mem_cons.mp h
    have hrest : dedupeLoop present false (render gs) = gs.flatMap (leftover present) := ih hgs
    rw [dedupeArgs, Argv.render_cons, List.flatMap_cons, ← hrest, leftover, dedupeLoop]
    by_cases hpresent : g.flag ∈ present
    · rw [if_pos ⟨hg.flag, hpresent⟩, if_pos hpresent]
      cases hwords : g.words with
      | nil =>
        -- what follows is the flag of the next group, or the end
        have hlead : lead isFlag (render gs) = [] := Argv.lead_render hgs
        rw [List.nil_append, List.tail_nil, List.nil_append]
        cases hnext : render gs with
        | nil => rfl
        | cons next rest =>
          cases hflag : isFlag next with
          | true => simp [hflag]
          | false =>
            rw [hnext, Argv.lead_word hflag] at hlead
            cases hlead
      | cons w words =>
        have hw : isFlag w = false := hg.words w (by simp [hwords])
        have htail : ∀ v ∈ words, isFlag v = false := fun v hv => hg.words v (by simp [hwords, hv])
        rw [List.cons_append, List.tail_cons, ← dedupeLoop_words htail]
        simp [hw, dedupeLoop]
    · rw [if_neg (fun hboth => hpresent hboth.2), if_neg hpresent, dedupeLoop_words hg.words]
      rfl

theorem leftover_subset (g : Opt String) : leftover present g ⊆ g.tokens := by
  unfold leftover
  split
  · exact fun w hw => List.mem_cons_of_mem _ (List.mem_of_mem_tail hw)
  · exact fun _ hw => hw

end Dedupe

/-! ## The planner's options and the others -/

/-- The option of a token: `--flag` of `--flag=value`. -/
def optionName (flag : String) : String := String.ofList (flag.toList.takeWhile (· ≠ '='))

/-- The groups of an option, however it is written. -/
def occurrences (option : String) (argv : List String) : List (Opt String) :=
  (groups isFlag argv).filter fun g => optionName g.flag = option

def optionNames (argv : List String) : List String := (groups isFlag argv).map fun g => optionName g.flag

/-- What the planner writes itself, for extra arguments that may give `--headless`. -/
def ownArgs (d : KvCacheDeployment) (nodeRank : Int) (planned extraArgs : List String) : List String :=
  planned ++ headlessArgs d nodeRank (planned ++ extraArgs)

/-- The planner's options as the planner wrote them, all others as the extra arguments have them, and no word that
belongs to none. -/
structure PlannedWins (own extraArgs argv : List String) : Prop where
  lead : lead isFlag argv = lead isFlag own
  planned : ∀ option ∈ optionNames own, occurrences option argv = occurrences option own
  others : ∀ option, option ∉ optionNames own → occurrences option argv = occurrences option extraArgs

/-- An extra argument for one of the planner's options is a flag that stands in the plan, with one value at most. -/
def Droppable (planned own : List String) (g : Opt String) : Prop :=
  optionName g.flag ∈ optionNames own → g.flag ∈ planned ∧ g.words.length ≤ 1

section Wins

variable {d : KvCacheDeployment} {nodeRank : Int} {planned own extraArgs argv : List String}

theorem mem_optionNames {argv : List String} {flag : String} (hflag : isFlag flag = true) (h : flag ∈ argv) :
    optionName flag ∈ optionNames argv := by
  obtain ⟨g, hg, rfl⟩ := Argv.exists_group h hflag
  exact List.mem_map.mpr ⟨g, hg, rfl⟩

theorem occurrences_eq_nil {option : String} (h : option ∉ optionNames argv) : occurrences option argv = [] := by
  rw [occurrences, List.filter_eq_nil_iff]
  intro g hg hname
  exact h (List.mem_map.mpr ⟨g, hg, by simpa using hname⟩)

/-- The groups of the extra arguments that are for other options. -/
def otherGroups (own extraArgs : List String) : List (Opt String) :=
  (groups isFlag extraArgs).filter fun g => optionName g.flag ∉ optionNames own

theorem filter_otherGroups {option : String} : (otherGroups own extraArgs).filter (fun g => optionName g.flag = option) =
    if option ∈ optionNames own then [] else occurrences option extraArgs := by
  rw [otherGroups, occurrences, List.filter_filter]
  split
  · rename_i hown
    rw [List.filter_eq_nil_iff]
    intro g _
    simp only [Bool.and_eq_true, decide_eq_true_eq, not_and]
    exact fun hname hnot => hnot (hname ▸ hown)
  · rename_i hown
    refine List.filter_congr fun g _ => ?_
    by_cases hname : optionName g.flag = option
    · simp [hname, hown]
    · simp [hname]

theorem lead_headlessArgs (argv : List String) : lead isFlag (headlessArgs d nodeRank argv) = [] := by
  unfold headlessArgs
  split
  · rfl
  · rfl

/-- The planner's own flags begin groups of the plan. -/
theorem leftover_of_other {g : Opt String} (hg : g.Formed isFlag) (hplanned : planned ⊆ own)
    (h : optionName g.flag ∉ optionNames own) : leftover (planned.filter isFlag) g = g.tokens := by
  refine if_neg fun hpresent => h (mem_optionNames hg.flag (hplanned (List.mem_of_mem_filter hpresent)))

theorem leftover_eq_nil {g : Opt String} (hg : g.Formed isFlag) :
    leftover (planned.filter isFlag) g = [] ↔ g.flag ∈ planned ∧ g.words.length ≤ 1 := by
  unfold leftover
  split
  · rename_i hpresent
    have htail : g.words.tail = [] ↔ g.words.length ≤ 1 := by
      rw [← List.length_eq_zero_iff, List.length_tail]
      omega
    rw [htail]
    exact (and_iff_right (List.mem_of_mem_filter hpresent)).symm
  · rename_i hpresent
    refine ⟨fun h => absurd h (List.cons_ne_nil _ _), fun h => absurd ?_ hpresent⟩
    exact List.mem_filter.mpr ⟨h.1, hg.flag⟩

theorem headlessArgs_dedupe (hlead : lead isFlag extraArgs = []) :
    headlessArgs d nodeRank (planned ++ dedupeArgs extraArgs (planned.filter isFlag)) =
      headlessArgs d nodeRank (planned ++ extraArgs) := by
  have hrender := @Argv.render_groups String isFlag extraArgs
  rw [hlead, List.nil_append] at hrender
  have hdedupe := @dedupeArgs_render (planned.filter isFlag) _
    (fun g (hg : g ∈ groups isFlag extraArgs) => Argv.formed_of_mem hg)
  rw [hrender] at hdedupe
  have hmem : "--headless" ∈ planned ++ dedupeArgs extraArgs (planned.filter isFlag) ↔
      "--headless" ∈ planned ++ extraArgs := by
    rw [List.mem_append, List.mem_append, hdedupe]
    constructor
    · rintro (hin | hin)
      · exact .inl hin
      · obtain ⟨g, hg, hleft⟩ := List.mem_flatMap.mp hin
        rw [← hrender]
        exact .inr (List.mem_flatMap.mpr ⟨g, hg, leftover_subset g hleft⟩)
    · rintro (hin | hin)
      · exact .inl hin
      · -- the flag begins a group, which stays where the plan has no such flag
        have hheadless : isFlag "--headless" = true := by decide
        obtain ⟨g, hg, hflag⟩ := Argv.exists_group hin hheadless
        by_cases hplanned : g.flag ∈ planned
        · exact .inl (hflag ▸ hplanned)
        · refine .inr (List.mem_flatMap.mpr ⟨g, hg, ?_⟩)
          rw [leftover, if_neg (fun hpresent => hplanned (List.mem_of_mem_filter hpresent)), ← hflag]
          exact List.mem_cons_self
  unfold headlessArgs
  simp only [hmem]

theorem leftovers_of_droppable {gs : List (Opt String)} (hgs : ∀ g ∈ gs, g.Formed isFlag) (hplanned : planned ⊆ own)
    (h : ∀ g ∈ gs, Droppable planned own g) : gs.flatMap (leftover (planned.filter isFlag)) =
      render (gs.filter fun g => optionName g.flag ∉ optionNames own) := by
  induction gs with
  | nil => rfl
  | cons g gs ih =>
    obtain ⟨hg, hrest⟩ := List.forall_mem_cons.mp hgs
    obtain ⟨hdrop, hdrops⟩ := List.forall_mem_cons.mp h
    rw [List.flatMap_cons, ih hrest hdrops]
    by_cases hown : optionName g.flag ∈ optionNames own
    · rw [(leftover_eq_nil hg).mpr (hdrop hown), List.filter_cons_of_neg (by simpa using hown), List.nil_append]
    · rw [leftover_of_other hg hplanned hown, List.filter_cons_of_pos (by simpa using hown)]
      rfl

theorem plannedWins_of_droppable {tail : List String}
    (htail : lead isFlag tail = []) (h : ∀ g ∈ groups isFlag extraArgs, Droppable planned (planned ++ tail) g) :
    PlannedWins (planned ++ tail) extraArgs
      (planned ++ (groups isFlag extraArgs).flatMap (leftover (planned.filter isFlag)) ++ tail) := by
  have hformed : ∀ g ∈ groups isFlag extraArgs, g.Formed isFlag := fun g hg => Argv.formed_of_mem hg
  rw [leftovers_of_droppable hformed (List.subset_append_left _ _) h, ← otherGroups]
  have hothers : ∀ g ∈ otherGroups (planned ++ tail) extraArgs, g.Formed isFlag :=
    fun g hg => hformed g (List.mem_of_mem_filter hg)
  have hrest : lead isFlag (render (otherGroups (planned ++ tail) extraArgs) ++ tail) = [] :=
    (Argv.lead_append _ htail).trans (Argv.lead_render hothers)
  have hgroups : groups isFlag (planned ++ render (otherGroups (planned ++ tail) extraArgs) ++ tail) =
      groups isFlag planned ++ (otherGroups (planned ++ tail) extraArgs ++ groups isFlag tail) := by
    rw [List.append_assoc, Argv.groups_append _ hrest, Argv.groups_append _ htail, Argv.groups_render hothers]
  have hargv : ∀ option, occurrences option (planned ++ render (otherGroups (planned ++ tail) extraArgs) ++ tail) =
      occurrences option planned ++ ((if option ∈ optionNames (planned ++ tail) then []
        else occurrences option extraArgs) ++ occurrences option tail) := by
    intro option
    rw [← filter_otherGroups, occurrences, hgroups, List.filter_append, List.filter_append]
    rfl
  have hown : ∀ option, occurrences option (planned ++ tail) =
      occurrences option planned ++ occurrences option tail := by
    intro option
    rw [occurrences, Argv.groups_append _ htail, List.filter_append]
    rfl
  refine ⟨?_, fun option hoption => ?_, fun option hoption => ?_⟩
  · rw [List.append_assoc, Argv.lead_append _ hrest, Argv.lead_append _ htail]
  · rw [hargv, hown, if_pos hoption, List.nil_append]
  · have hnone := occurrences_eq_nil hoption
    rw [hown, List.append_eq_nil_iff] at hnone
    rw [hargv, if_neg hoption, hnone.1, hnone.2, List.nil_append, List.append_nil]

/-- Where the planner wins, the command line has the groups of the plan and those of the other options. -/
theorem PlannedWins.perm (h : PlannedWins own extraArgs argv) :
    (groups isFlag argv).Perm (groups isFlag own ++ otherGroups own extraArgs) := by
  refine Argv.perm_of_filter_key (fun g => optionName g.flag) fun option => ?_
  rw [List.filter_append, filter_otherGroups]
  by_cases hown : option ∈ optionNames own
  · rw [if_pos hown, List.append_nil]
    exact h.planned option hown
  · rw [if_neg hown]
    exact (h.others option hown).trans (congrArg (· ++ _) (occurrences_eq_nil hown)).symm

theorem PlannedWins.length (h : PlannedWins own extraArgs argv) :
    argv.length = own.length + (render (otherGroups own extraArgs)).length := by
  have hargv := congrArg List.length (@Argv.render_groups String isFlag argv)
  have hown := congrArg List.length (@Argv.render_groups String isFlag own)
  have hrender : (render (groups isFlag argv)).length =
      (render (groups isFlag own ++ otherGroups own extraArgs)).length :=
    (h.perm.flatMap_right Opt.tokens).length_eq
  rw [Argv.render_append, List.length_append] at hrender
  rw [List.length_append, h.lead] at hargv
  rw [List.length_append] at hown
  omega

/-- What stays of the extra arguments: the groups of other options, and what is left of the rest. -/
theorem length_leftovers {gs : List (Opt String)} (hgs : ∀ g ∈ gs, g.Formed isFlag) (hplanned : planned ⊆ own) :
    (gs.flatMap (leftover (planned.filter isFlag))).length =
      (render (gs.filter fun g => optionName g.flag ∉ optionNames own)).length +
        ((gs.filter fun g => optionName g.flag ∈ optionNames own).flatMap
          (leftover (planned.filter isFlag))).length := by
  induction gs with
  | nil => rfl
  | cons g gs ih =>
    obtain ⟨hg, hrest⟩ := List.forall_mem_cons.mp hgs
    rw [List.flatMap_cons, List.length_append, ih hrest]
    by_cases hown : optionName g.flag ∈ optionNames own
    · rw [List.filter_cons_of_neg (by simpa using hown), List.filter_cons_of_pos (by simpa using hown),
        List.flatMap_cons, List.length_append]
      omega
    · rw [List.filter_cons_of_pos (by simpa using hown), List.filter_cons_of_neg (by simpa using hown),
        leftover_of_other hg hplanned hown, Argv.render_cons, List.length_cons, List.length_append, Opt.tokens,
        List.length_cons]
      omega

theorem droppable_of_plannedWins {tail : List String}
    (h : PlannedWins (planned ++ tail) extraArgs
      (planned ++ (groups isFlag extraArgs).flatMap (leftover (planned.filter isFlag)) ++ tail)) :
    ∀ g ∈ groups isFlag extraArgs, Droppable planned (planned ++ tail) g := by
  have hformed : ∀ g ∈ groups isFlag extraArgs, g.Formed isFlag := fun g hg => Argv.formed_of_mem hg
  have hlength := h.length
  have hleft := length_leftovers hformed (List.subset_append_left planned tail)
  rw [List.length_append, List.length_append, List.length_append, hleft, ← otherGroups] at hlength
  have hnone := List.eq_nil_of_length_eq_zero (l := (((groups isFlag extraArgs).filter fun g =>
    optionName g.flag ∈ optionNames (planned ++ tail)).flatMap (leftover (planned.filter isFlag)))) (by omega)
  intro g hg hown
  refine (leftover_eq_nil (hformed g hg)).mp ?_
  exact List.flatMap_eq_nil_iff.mp hnone g (List.mem_filter.mpr ⟨hg, by simpa using hown⟩)

end Wins

/-! ## Templates -/

/-- What begins with a brace is not found before the dashes end. -/
theorem replaceFrom_flag {old new text : List Char} (h : old.head? = some '\x7b')
    (htext : "--".toList <+: text) : "--".toList <+: replaceFrom old new 0 text := by
  obtain ⟨rest, rfl⟩ := htext
  have hold : ∀ text : List Char, old.isPrefixOf ('-' :: text) = false := by
    intro text
    cases old with
    | nil => cases h
    | cons c old =>
      obtain rfl : c = '\x7b' := Option.some.inj h
      rfl
  have hstep : ∀ text : List Char, replaceFrom old new 0 ('-' :: text) = '-' :: replaceFrom old new 0 text := by
    intro text
    rw [replaceFrom, hold]
    rfl
  have hdashes : "--".toList ++ rest = '-' :: '-' :: rest := rfl
  rw [hdashes, hstep, hstep]
  exact List.prefix_append "--".toList _

theorem replaceAll_flag {values : List (String × String)} (h : ∀ kv ∈ values, kv.1.toList.head? = some '\x7b') :
    ∀ {text : List Char}, "--".toList <+: text → "--".toList <+: replaceAll values text := by
  induction values with
  | nil => exact fun htext => htext
  | cons kv values ih =>
    obtain ⟨hkv, hvalues⟩ := List.forall_mem_cons.mp h
    exact fun htext => ih hvalues (replaceFrom_flag hkv htext)

theorem isFlag_iff {text : String} : isFlag text = true ↔ "--".toList <+: text.toList := List.isPrefixOf_iff_prefix

theorem expand_ok {d : KvCacheDeployment} {nodeRank : Int} {sparkNode : Option String}
    {fabricNode : Option FabricNode} {value text : String}
    (h : expand d nodeRank sparkNode fabricNode value = .ok text) :
    text.toList = replaceAll (templateValues ((given sparkNode).getD d.sparkNode) nodeRank fabricNode) value.toList := by
  obtain ⟨_, _, h⟩ := Queue.bind_eq_ok h
  rw [← Except.ok.inj h, String.toList_ofList]

/-- A template for a flag becomes a flag. -/
theorem isFlag_expand {d : KvCacheDeployment} {nodeRank : Int} {sparkNode : Option String}
    {fabricNode : Option FabricNode} {value text : String} (h : expand d nodeRank sparkNode fabricNode value = .ok text)
    (hflag : isFlag value = true) : isFlag text = true := by
  have hbrace : ∀ kv ∈ templateValues ((given sparkNode).getD d.sparkNode) nodeRank fabricNode,
      kv.1.toList.head? = some '\x7b' := by
    simp [templateValues]
  rw [isFlag_iff] at hflag ⊢
  rw [expand_ok h]
  exact replaceAll_flag hbrace hflag

theorem lead_expanded {d : KvCacheDeployment} {nodeRank : Int} {sparkNode : Option String}
    {fabricNode : Option FabricNode} {extraArgs : List String}
    (hextra : expandedExtraArgs d nodeRank sparkNode fabricNode = .ok extraArgs)
    (hlead : lead isFlag d.extraArgs = []) : lead isFlag extraArgs = [] := by
  unfold expandedExtraArgs at hextra
  cases hargs : d.extraArgs with
  | nil =>
    rw [hargs] at hextra
    cases hextra
    rfl
  | cons value values =>
    rw [hargs, mapM_cons_ok] at hextra
    obtain ⟨text, rest, htext, _, rfl⟩ := hextra
    cases hflag : isFlag value with
    | false =>
      rw [hargs, Argv.lead_word hflag] at hlead
      cases hlead
    | true => exact Argv.lead_flag (isFlag_expand htext hflag) _

/-! ## The command line of a deployment -/

section CommandLine

variable {dumps : JsonObj → String} {d : KvCacheDeployment} {connector : KvCacheConnector} {nodeRank : Int}
  {sparkNode : Option String} {fabricNode : Option FabricNode} {planned extraArgs : List String}

/-- The planner's options have the planner's values, and the others their own, exactly when every extra argument
for one of the planner's options is a flag as it stands in the plan, with one value at most. -/
theorem vllm_argv_iff (hlead : lead isFlag d.extraArgs = [])
    (hplanned : plannedArgv dumps d connector nodeRank sparkNode fabricNode = .ok planned)
    (hextra : expandedExtraArgs d nodeRank sparkNode fabricNode = .ok extraArgs) :
    ∃ argv, vllmArgv dumps d connector nodeRank sparkNode fabricNode = .ok argv ∧
      (PlannedWins (ownArgs d nodeRank planned extraArgs) extraArgs argv ↔
        ∀ g ∈ groups isFlag extraArgs, Droppable planned (ownArgs d nodeRank planned extraArgs) g) := by
  have hlead' := lead_expanded hextra hlead
  have hrender := @Argv.render_groups String isFlag extraArgs
  rw [hlead', List.nil_append] at hrender
  have hdedupe := @dedupeArgs_render (planned.filter isFlag) _
    (fun g (hg : g ∈ groups isFlag extraArgs) => Argv.formed_of_mem hg)
  rw [hrender] at hdedupe
  refine ⟨planned ++ dedupeArgs extraArgs (planned.filter isFlag) ++
    headlessArgs d nodeRank (planned ++ extraArgs), ?_, ?_⟩
  · rw [vllmArgv, hplanned, hextra, ← headlessArgs_dedupe hlead']
    rfl
  · rw [hdedupe, ownArgs]
    exact ⟨droppable_of_plannedWins, plannedWins_of_droppable (lead_headlessArgs _)⟩

end CommandLine

/-- Two GPUs on one node, and no KV connector. -/
def tensorParallel (extraArgs : List String) : KvCacheDeployment where
  sparkNode := "spark0"
  modelId := "/models/{node}/qwen"
  modelIdByRank := []
  servedModelName := none
  host := "0.0.0.0"
  httpPort := 8000
  tensorParallelSize := 2
  pipelineParallelSize := 1
  maxBatchSize := none
  masterAddr := some "spark0"
  masterPort := none
  vllmBin := "vllm"
  vllmSourceRoot := none
  vllmRunner := none
  extraArgs := extraArgs
  textOnly := false

def noConnector : KvCacheConnector := ⟨"none", "", "kv_both", none, []⟩

def tensorParallelPlan : List String :=
  ["vllm", "serve", "/models/spark0/qwen", "--host", "0.0.0.0", "--port", "8000", "--tensor-parallel-size", "2"]

def plainDumps (config : JsonObj) : String := Json.dumps (.obj config)

/-- A bare flag and a flag with one value are dropped where the plan has them. -/
theorem vllm_argv_iff_tensorParallel : ∃ argv,
    vllmArgv plainDumps (tensorParallel ["--port", "80", "--seed", "1", "2"]) noConnector 0 none none = .ok argv ∧
      (PlannedWins
        (ownArgs (tensorParallel ["--port", "80", "--seed", "1", "2"]) 0 tensorParallelPlan
          ["--port", "80", "--seed", "1", "2"])
        ["--port", "80", "--seed", "1", "2"] argv ↔
        ∀ g ∈ groups isFlag ["--port", "80", "--seed", "1", "2"], Droppable tensorParallelPlan
          (ownArgs (tensorParallel ["--port", "80", "--seed", "1", "2"]) 0 tensorParallelPlan
            ["--port", "80", "--seed", "1", "2"]) g) :=
  vllm_argv_iff (by decide) (by decide) (by decide)

/-- An attached value goes past the filter and stands behind the planner's own. -/
theorem vllmArgv_overridden :
    vllmArgv plainDumps (tensorParallel ["--tensor-parallel-size=4"]) noConnector 0 none none =
      .ok (tensorParallelPlan ++ ["--tensor-parallel-size=4"]) ∧
    plannedArgv plainDumps (tensorParallel ["--tensor-parallel-size=4"]) noConnector 0 none none =
      .ok tensorParallelPlan ∧
    lead isFlag (tensorParallel ["--tensor-parallel-size=4"]).extraArgs = [] ∧
    ¬ PlannedWins (ownArgs (tensorParallel ["--tensor-parallel-size=4"]) 0 tensorParallelPlan
        ["--tensor-parallel-size=4"]) ["--tensor-parallel-size=4"]
      (tensorParallelPlan ++ ["--tensor-parallel-size=4"]) := by
  refine ⟨by decide, by decide, by decide, fun h => ?_⟩
  have htensor := h.planned "--tensor-parallel-size" (by decide)
  revert htensor
  decide

end Launch
end Ds4Spark
