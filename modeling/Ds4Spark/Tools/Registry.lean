import Ds4Spark.Baker.EngineLock
import Ds4Spark.Lib.Lexical
import Ds4Spark.Pipeline.Service

/-!
# Ds4Spark.Tools.Registry

The tool registry (`ToolRegistry`) and the tools it runs as commands (`_execute_bash`).

A command's first word is a path from the directory of the registry, with the links on the way followed, and
must begin with the text of that directory. What the machine answers is a parameter: its links, its
environment, its commands and the functions a tool may name.

* `ToolAtom.fromJson`, `ToolRegistry.make`, `ToolRegistry.get`.
* `resolveIn`, `resolveArgv`, `bashCommand`: the command up to its start.
* `executeBash`, `executeTool`.
* `bash_inside_iff`: an accepted executable lies inside the registry exactly when it is not the directory of
  the registry itself and not beside it, under a name that goes on after the registry's own.
-/

namespace Ds4Spark
namespace Tools

open Queue (Error raiseIf bind_eq_ok not_of_raiseIf asInt)
open Baker (argList)
open Pipeline (intOr)

/-- A place in the file system, by the names that lead to it. -/
structure Place where
  names : Path.Dir
  clean : ∀ name ∈ names, '/' ∉ name ∧ name ≠ []

/-- `str(path)` of a resolved path. -/
def Place.text (place : Place) : String :=
  if place.names = [] then "/" else String.ofList (Path.slashed place.names)

structure BashEnv where
  path : String
  pythonPath : String
  arguments : JsonObj

structure Command where
  argv : List String
  cwd : Place
  env : BashEnv
  timeout : Int

structure Completed where
  returncode : Int
  stdout : String
  stderr : String

/-- The machine that the tools run on. -/
structure Host where
  links : Path.Links
  /-- Names that are followed before a circle of links is noticed. -/
  fuel : Nat
  cwd : Place
  environ : String → Option String
  run : Command → Except Error Completed
  call : String → String → JsonObj → Except Error Json
  loads : String → Option Json

/-! ## The registry -/

structure ToolAtom where
  toolId : String
  oneLine : String
  stability : String
  capabilityTags : List String
  executor : JsonObj
  inputSchema : JsonObj
  policy : JsonObj
  raw : JsonObj

def requiredKeys : List String :=
  ["tool_id", "one_line", "stability", "capability_tags", "executor", "input_schema", "policy"]

/-- `str(data[key])`. -/
def textOf (data : JsonObj) (key : String) : String := Json.pyStr ((data.get? key).getD .null)

/-- `dict(data[key])`. -/
def dictOf (data : JsonObj) (key : String) : Except Error JsonObj :=
  match Json.pyDict ((data.get? key).getD .null) with
  | some fields => .ok fields
  | none => .error (.valueError "cannot convert to a dictionary")

/-- `ToolAtom.from_json`. -/
def ToolAtom.fromJson (data : JsonObj) : Except Error ToolAtom := do
  raiseIf (Json.strOf? (data.get? "format") ≠ some "ds4-tool-atom-v1")
    ("unsupported tool format: " ++ Json.pyRepr ((data.get? "format").getD .null))
  let missing := requiredKeys.filter fun key => !data.has key
  raiseIf (missing ≠ []) ("tool record missing fields: " ++ pyReprList missing)
  let capabilityTags ← argList data "capability_tags"
  let executor ← dictOf data "executor"
  let inputSchema ← dictOf data "input_schema"
  let policy ← dictOf data "policy"
  .ok {
    toolId := textOf data "tool_id"
    oneLine := textOf data "one_line"
    stability := textOf data "stability"
    capabilityTags
    executor
    inputSchema
    policy
    raw := data }

/-- `(dir / text).resolve()`. -/
def resolveIn (host : Host) (dir : Place) (text : String) : Except Error Place :=
  if Char.ofNat 0 ∈ text.toList then .error (.valueError "lstat: embedded null character in path")
  else
    let start : Place := if Path.isAbsolute text.toList then ⟨[], fun _ h => nomatch h⟩ else dir
    match h : Path.realpath host.links host.fuel start.names (Path.parts text.toList) with
    | some names => .ok ⟨names, Path.realpath_forall Path.clean_parts start.clean (Path.clean_parts text.toList) h⟩
    | none => .error (.valueError ("Symlink loop from " ++ strRepr text))

/-- The tools of a registry have ids of their own. -/
structure ToolRegistry where
  root : Place
  tools : List ToolAtom
  nonempty : tools ≠ []
  distinct : (tools.map ToolAtom.toolId).Nodup

/-- `ToolRegistry(tools, root=root)`. -/
def ToolRegistry.make (host : Host) (tools : List ToolAtom) (root : String) : Except Error ToolRegistry :=
  if hne : tools = [] then .error (.valueError "tool registry is empty")
  else do
    let root ← resolveIn host host.cwd root
    if hids : (tools.map ToolAtom.toolId).Nodup then .ok ⟨root, tools, hne, hids⟩
    else .error (.valueError "duplicate tool_id in registry")

def ToolRegistry.get (registry : ToolRegistry) (toolId : String) : Except Error ToolAtom :=
  match registry.tools.find? (·.toolId = toolId) with
  | some tool => .ok tool
  | none => .error (.valueError ("unknown tool_id: " ++ toolId))

/-! ## Commands -/

/-- `str(executable).startswith(str(root))`. -/
def startsWith (executable root : Place) : Bool := root.text.toList.isPrefixOf executable.text.toList

/-- The items after the first one. -/
def argvRest : List Json → Except Error (List String)
  | [] => .ok []
  | .str item :: rest => do
    let items ← argvRest rest
    .ok (item :: items)
  | _ :: _ => .error (.valueError "bash argv items must be strings")

/-- The loop of `_execute_bash`. -/
def resolveArgv (host : Host) (root : Place) : List Json → Except Error (List String)
  | .str item :: rest => do
    let executable ← resolveIn host root item
    raiseIf (startsWith executable root = false) "bash executable must stay inside registry root"
    let items ← argvRest rest
    .ok (executable.text :: items)
  | [] => .error (.valueError "bash executor requires non-empty argv")
  | _ :: _ => .error (.valueError "bash argv items must be strings")

/-- `tool.executor.get("argv")`, which must be a list. -/
def argvOf (tool : ToolAtom) : Except Error (List Json) :=
  match tool.executor.get? "argv" with
  | some (.arr items) => .ok items
  | _ => .error (.valueError "bash executor requires non-empty argv")

def bashEnv (host : Host) (arguments : JsonObj) : BashEnv :=
  ⟨(host.environ "PATH").getD "", (host.environ "PYTHONPATH").getD "", arguments⟩

/-- `_execute_bash` up to `subprocess.run`. -/
def bashCommand (host : Host) (root : Place) (tool : ToolAtom) (arguments : JsonObj) :
    Except Error Command := do
  let items ← argvOf tool
  let argv ← resolveArgv host root items
  let timeout ← intOr tool.policy "timeout_s" 30
  .ok ⟨argv, root, bashEnv host arguments, timeout⟩

/-- `json.loads(stdout) if stdout.strip() else None`, and `None` for a text that is no JSON. -/
def parsedStdout (host : Host) (stdout : String) : Json :=
  if pyStrip stdout = "" then .null else (host.loads stdout).getD .null

/-- `_execute_bash`. -/
def executeBash (host : Host) (root : Place) (tool : ToolAtom) (arguments : JsonObj) :
    Except Error JsonObj := do
  let command ← bashCommand host root tool arguments
  let completed ← host.run command
  let maxOutputBytes ← intOr tool.policy "max_output_bytes" 65536
  raiseIf (maxOutputBytes < completed.stdout.utf8ByteSize ∨ maxOutputBytes < completed.stderr.utf8ByteSize)
    "bash tool output exceeded max_output_bytes"
  .ok [
    ("ok", .bool (completed.returncode = 0)),
    ("returncode", .int completed.returncode),
    ("stdout", .str completed.stdout),
    ("stderr", .str completed.stderr),
    ("json", parsedStdout host completed.stdout)]

/-- `callable_name.split(":", 1)`. -/
def splitCallable (name : String) : Except Error (String × String) :=
  match name.toList.dropWhile (· ≠ ':') with
  | _ :: functionName =>
    .ok (String.ofList (name.toList.takeWhile (· ≠ ':')), String.ofList functionName)
  | [] => .error (.valueError "not enough values to unpack (expected 2, got 1)")

/-- `_execute_tool`. -/
def executeTool (host : Host) (root : Place) (tool : ToolAtom) (arguments : JsonObj) :
    Except Error JsonObj :=
  let kind := Json.pyStr ((tool.executor.get? "kind").getD (.str ""))
  if kind = "python" then do
    let (moduleName, functionName) ← splitCallable (Json.pyStr ((tool.executor.get? "callable").getD (.str "")))
    let result ← host.call moduleName functionName arguments
    match result with
    | .obj fields => .ok fields
    | _ => .error (.valueError "python tool returned non-object result")
  else if kind = "bash" then executeBash host root tool arguments
  else .error (.valueError ("unsupported tool executor kind: " ++ kind))

/-! ## Inside the registry -/

/-- The directory is an ancestor of the place. -/
def Inside (root place : Place) : Prop := ∃ name rest, place.names = root.names ++ name :: rest

/-- The place is beside the directory, or below a place beside it, and the name there goes on after the
directory's own. -/
def Beside (root place : Place) : Prop :=
  ∃ dir last name rest, root.names = dir ++ [last] ∧ place.names = dir ++ name :: rest ∧
    last <+: name ∧ last ≠ name

theorem text_toList (place : Place) :
    place.text.toList = if place.names = [] then ['/'] else Path.slashed place.names := by
  unfold Place.text
  split <;> simp

theorem Place.plain (place : Place) : Path.Plain place.names := fun name h => (place.clean name h).1

theorem startsWith_iff {executable root : Place} : startsWith executable root = true ↔
    root.names = [] ∨ Path.slashed root.names <+: Path.slashed executable.names := by
  rw [startsWith, List.isPrefixOf_iff_prefix, text_toList, text_toList]
  by_cases hplace : executable.names = []
  · cases hroot : root.names with
    | nil => simp [hplace]
    | cons name names =>
      have hname : name ≠ [] := (root.clean name (by simp [hroot])).2
      simp [hplace, Path.slashed, hname]
  · by_cases hroot : root.names = []
    · obtain ⟨name, names, hnames⟩ := List.exists_cons_of_ne_nil hplace
      simp [hroot, hnames, Path.slashed_cons]
    · simp [hroot, hplace]

theorem not_beside_of_inside {root place : Place} (h : Inside root place) : ¬ Beside root place := by
  rintro ⟨dir, last, name, rest, hroot, hplace, _, hne⟩
  obtain ⟨name', rest', hinside⟩ := h
  rw [hinside, hroot, List.append_assoc, List.append_cancel_left_eq] at hplace
  exact hne (List.cons.inj hplace).1

theorem inside_iff_of_startsWith {executable root : Place} (h : startsWith executable root = true) :
    Inside root executable ↔ executable.names ≠ root.names ∧ ¬ Beside root executable := by
  constructor
  · intro hinside
    refine ⟨fun heq => ?_, not_beside_of_inside hinside⟩
    obtain ⟨name, rest, hinside⟩ := hinside
    simpa using heq.symm.trans hinside
  · rintro ⟨hne, hbeside⟩
    rcases startsWith_iff.mp h with hroot | hle
    · obtain ⟨name, rest, hnames⟩ := List.exists_cons_of_ne_nil (hroot ▸ hne)
      exact ⟨name, rest, by rw [hroot, hnames]; rfl⟩
    · rcases (Path.slashed_prefix root.plain executable.plain).mp hle with hroot | hlast
      · obtain ⟨name, rest, hnames⟩ := List.exists_cons_of_ne_nil (hroot ▸ hne)
        exact ⟨name, rest, by rw [hroot, hnames]; rfl⟩
      · -- the last name of the registry, or one that goes on after it
        obtain ⟨dir, last, name, rest, hroot, hnames, hle⟩ := hlast
        by_cases hname : last = name
        · subst hname
          cases rest with
          | nil => exact absurd (hnames.trans hroot.symm) hne
          | cons next rest => exact ⟨next, rest, by rw [hroot, hnames]; simp⟩
        · exact absurd ⟨dir, last, name, rest, hroot, hnames, hle, hname⟩ hbeside

theorem bashCommand_ok {host : Host} {root : Place} {tool : ToolAtom} {arguments : JsonObj}
    {command : Command} (h : bashCommand host root tool arguments = .ok command) :
    ∃ item rest executable, tool.executor.get? "argv" = some (.arr (.str item :: rest)) ∧
      resolveIn host root item = .ok executable ∧ startsWith executable root = true ∧
      command.argv.head? = some executable.text := by
  obtain ⟨items, hitems, h⟩ := bind_eq_ok h
  obtain ⟨argv, hargv, h⟩ := bind_eq_ok h
  obtain ⟨timeout, _, h⟩ := bind_eq_ok h
  cases h
  have hget : tool.executor.get? "argv" = some (.arr items) := by
    unfold argvOf at hitems
    split at hitems
    · rename_i found hfound
      cases hitems
      exact hfound
    · cases hitems
  cases items with
  | nil => cases hargv
  | cons first rest =>
    cases first with
    | str item =>
      obtain ⟨executable, hresolve, hargv⟩ := bind_eq_ok hargv
      obtain ⟨_, hstarts, hargv⟩ := bind_eq_ok hargv
      obtain ⟨items, _, hargv⟩ := bind_eq_ok hargv
      cases hargv
      have hstarts := not_of_raiseIf hstarts
      exact ⟨item, rest, executable, hget, hresolve, by simpa using hstarts, rfl⟩
    | _ => cases hargv

/-- The executable of a command lies inside the registry exactly when `argv[0]` leads neither to the registry
itself nor beside it. -/
theorem bash_inside_iff {host : Host} {root : Place} {tool : ToolAtom} {arguments : JsonObj}
    {command : Command} (h : bashCommand host root tool arguments = .ok command) :
    ∃ item rest executable, tool.executor.get? "argv" = some (.arr (.str item :: rest)) ∧
      resolveIn host root item = .ok executable ∧ command.argv.head? = some executable.text ∧
      (Inside root executable ↔ executable.names ≠ root.names ∧ ¬ Beside root executable) := by
  obtain ⟨item, rest, executable, hargv, hresolve, hstarts, hhead⟩ := bashCommand_ok h
  exact ⟨item, rest, executable, hargv, hresolve, hhead, inside_iff_of_startsWith hstarts⟩

/-! ## A command beside the registry -/

def quietHost : Host where
  links := fun _ => none
  fuel := 100
  cwd := ⟨[], fun _ h => nomatch h⟩
  environ := fun _ => none
  run := fun _ => .ok ⟨0, "", ""⟩
  call := fun _ _ _ => .ok (.obj [])
  loads := fun _ => none

/-- `/srv/tools`. -/
def toolsRoot : Place := ⟨["srv".toList, "tools".toList], by decide⟩

def bashTool (executable : String) : ToolAtom where
  toolId := "tool:x"
  oneLine := ""
  stability := ""
  capabilityTags := []
  executor := [("kind", .str "bash"), ("argv", .arr [.str executable])]
  inputSchema := []
  policy := []
  raw := []

/-- `../tools-old/run` leads to `/srv/tools-old/run`. -/
theorem bash_leaves_root : ∃ command executable,
    bashCommand quietHost toolsRoot (bashTool "../tools-old/run") [] = .ok command ∧
      resolveIn quietHost toolsRoot "../tools-old/run" = .ok executable ∧
      command.argv = [executable.text] ∧ ¬ Inside toolsRoot executable := by
  refine ⟨_, ⟨["srv".toList, "tools-old".toList, "run".toList], by decide⟩, rfl, rfl, rfl, ?_⟩
  rintro ⟨name, rest, h⟩
  simp [toolsRoot] at h

theorem bash_inside_iff_bin : ∃ item rest executable,
    (bashTool "bin/run").executor.get? "argv" = some (.arr (.str item :: rest)) ∧
      resolveIn quietHost toolsRoot item = .ok executable ∧
      some "/srv/tools/bin/run" = some executable.text ∧
      (Inside toolsRoot executable ↔
        executable.names ≠ toolsRoot.names ∧ ¬ Beside toolsRoot executable) :=
  @bash_inside_iff quietHost toolsRoot (bashTool "bin/run") []
    ⟨["/srv/tools/bin/run"], toolsRoot, bashEnv quietHost [], 30⟩ rfl

end Tools
end Ds4Spark
