import Ds4Spark.Queue.Schema
import Mathlib.Data.List.Basic
import Mathlib.Logic.Function.Basic

/-!
# Ds4Spark.Transfer.Waterfall

The relay of files along a chain of nodes: `build_waterfall_plan`, and `_run_waterfall` with a worker for
each edge of the chain.

The workers and the main thread take their steps in any order. What a worker does over ssh succeeds or
raises; a copy that raises can leave a file of any size behind, and a removal that raises can have removed
the file. The destination of every node is a store of its own, from paths to sizes.
-/

namespace Ds4Spark
namespace Transfer

open Queue (Error raiseIf)

structure FileItem where
  relpath : String
  size : Nat
deriving DecidableEq

structure WaterfallPlan where
  transferable : List FileItem
  lastNeededIndex : String → Option Nat
  edgeFiles : Nat → List FileItem

/-- The indices of the nodes that keep a file. -/
def keptAt (nodes : List String) (keepByNode : String → List String) (relpath : String) : List Nat :=
  (nodes.zipIdx.filter (fun p => relpath ∈ keepByNode p.1)).map Prod.snd

/-- The loop's body over one file. -/
def planItem (nodes : List String) (keepByNode : String → List String) (plan : WaterfallPlan)
    (item : FileItem) : WaterfallPlan :=
  match (keptAt nodes keepByNode item.relpath).max? with
  | none => plan
  | some lastIndex =>
    let lastNeededIndex := Function.update plan.lastNeededIndex item.relpath (some lastIndex)
    if lastIndex = 0 then { plan with lastNeededIndex := lastNeededIndex }
    else
      { transferable := plan.transferable ++ [item]
        lastNeededIndex := lastNeededIndex
        edgeFiles := fun e =>
          if e < lastIndex then plan.edgeFiles e ++ [item] else plan.edgeFiles e }

/-- `build_waterfall_plan`, with a set of kept paths for every node. -/
def buildWaterfallPlan (files : List FileItem) (nodes : List String)
    (keepByNode : String → List String) : Except Error WaterfallPlan := do
  raiseIf (nodes.any (fun node => (keepByNode node).any (fun relpath =>
    relpath ∉ files.map FileItem.relpath))) "keep manifests reference files missing from source"
  .ok (files.foldl (planItem nodes keepByNode) ⟨[], fun _ => none, fun _ => []⟩)

/-- What `_run_waterfall` is called with. -/
structure Waterfall where
  nodes : List String
  keepByNode : String → List String
  plan : WaterfallPlan
  cleanupTransit : Bool

/-! ## States -/

/-- Where the worker of an edge is, with the file it has in hand. -/
inductive Pc where
  | starting
  | waiting
  | taken (item : FileItem)
  | checking (item : FileItem)
  | copying (item : FileItem)
  | cleaning (item : FileItem)
  | forwarding (item : FileItem)
  | stopping (next : Nat)
  | ended
deriving DecidableEq

/-- A queue holds files and sentinels; `toPut` is what the main thread has still to put. `transferred` and
`forwarded` are what the worker of an edge has copied or found there, and what it has passed on. -/
structure Relay where
  pc : Nat → Pc
  queues : Nat → List (Option FileItem)
  toPut : List (Option FileItem)
  stop : Bool
  errors : List Nat
  store : Nat → String → Option Nat
  transferred : Nat → List FileItem
  forwarded : Nat → List FileItem

namespace Relay

variable (s : Relay)

def goto (e : Nat) (pc : Pc) : Relay := { s with pc := Function.update s.pc e pc }

def push (e : Nat) (x : Option FileItem) : Relay :=
  { s with queues := Function.update s.queues e (s.queues e ++ [x]) }

def pop (e : Nat) (rest : List (Option FileItem)) : Relay :=
  { s with queues := Function.update s.queues e rest }

def setFile (node : Nat) (relpath : String) (size : Option Nat) : Relay :=
  { s with store := Function.update s.store node (Function.update (s.store node) relpath size) }

def transfer (e : Nat) (item : FileItem) : Relay :=
  { s with transferred := Function.update s.transferred e (s.transferred e ++ [item]) }

def pass (e : Nat) (item : FileItem) : Relay :=
  { s with forwarded := Function.update s.forwarded e (s.forwarded e ++ [item]) }

/-- The `except` branch, up to `_stop_all_queues`. -/
def fail (e : Nat) : Relay :=
  { s.goto e (.stopping 0) with stop := true, errors := s.errors ++ [e] }

end Relay

inductive RelayAction where
  | put
  | ready (edge : Nat)
  | get (edge : Nat)
  | look (edge : Nat)
  | check (edge : Nat)
  | present (edge : Nat)
  | copied (edge : Nat)
  | clean (edge : Nat)
  | forward (edge : Nat)
  | raised (edge : Nat)
  | copyFailed (edge size : Nat)
  | cleanFailed (edge : Nat)
  | spread (edge : Nat)
deriving DecidableEq

namespace Waterfall

variable (w : Waterfall)

/-- The number of edges, which is the number of queues. -/
def edges : Nat := w.nodes.length - 1

def keeps (node : Nat) (relpath : String) : Bool :=
  (w.nodes[node]?).any (fun name => relpath ∈ w.keepByNode name)

def safetensors (relpath : String) : Bool := ".safetensors".toList.isSuffixOf relpath.toList

/-- `_cleanup_transit` removes the file from the edge's source. -/
def removes (e : Nat) (item : FileItem) : Bool :=
  w.cleanupTransit && e != 0 && !w.keeps e item.relpath && safetensors item.relpath

/-- `_forward_file` puts the file into the queue of edge `next`. -/
def passesTo (next : Nat) (item : FileItem) : Bool :=
  decide (next < w.edges) && (w.plan.lastNeededIndex item.relpath).any (fun last => next < last)

def start (store : Nat → String → Option Nat) : Relay where
  pc := fun e => if e < w.edges then .starting else .ended
  queues := fun _ => []
  toPut := (w.plan.edgeFiles 0).map some ++ [none]
  stop := false
  errors := []
  store := store
  transferred := fun _ => []
  forwarded := fun _ => []

/-- One step of the main thread or of the worker of an edge. -/
def step (a : RelayAction) (s : Relay) : Option Relay :=
  match a with
  | .put =>
    match s.toPut with
    | [] => none
    | x :: rest => some { s.push 0 x with toPut := rest }
  | .ready e => if s.pc e = .starting then some (s.goto e .waiting) else none
  | .get e =>
    match s.pc e, s.queues e with
    | .waiting, some item :: rest => some ((s.pop e rest).goto e (.taken item))
    | .waiting, none :: rest =>
      let s := (s.pop e rest).goto e .ended
      some (if e + 1 < w.edges then s.push (e + 1) none else s)
    | _, _ => none
  | .look e =>
    match s.pc e with
    | .taken item => some (s.goto e (if s.stop then .waiting else .checking item))
    | _ => none
  | .check e =>
    match s.pc e with
    | .checking item =>
      if s.store e item.relpath = some item.size then some (s.goto e (.copying item)) else none
    | _ => none
  | .present e =>
    match s.pc e with
    | .copying item =>
      if s.store (e + 1) item.relpath = some item.size then
        some ((s.transfer e item).goto e (.cleaning item))
      else none
    | _ => none
  | .copied e =>
    match s.pc e with
    | .copying item =>
      some (((s.setFile (e + 1) item.relpath (some item.size)).transfer e item).goto e
        (.cleaning item))
    | _ => none
  | .clean e =>
    match s.pc e with
    | .cleaning item =>
      let s := s.goto e (.forwarding item)
      some (if w.removes e item then s.setFile e item.relpath none else s)
    | _ => none
  | .forward e =>
    match s.pc e with
    | .forwarding item =>
      let s := (s.pass e item).goto e .waiting
      some (if w.passesTo (e + 1) item then s.push (e + 1) (some item) else s)
    | _ => none
  | .raised e =>
    match s.pc e with
    | .starting | .checking _ | .copying _ | .cleaning _ => some (s.fail e)
    | _ => none
  | .copyFailed e size =>
    match s.pc e with
    | .copying item => some ((s.setFile (e + 1) item.relpath (some size)).fail e)
    | _ => none
  | .cleanFailed e =>
    match s.pc e with
    | .cleaning item =>
      if w.removes e item then some ((s.setFile e item.relpath none).fail e) else none
    | _ => none
  | .spread e =>
    match s.pc e with
    | .stopping next =>
      if next < w.edges then some ((s.push next none).goto e (.stopping (next + 1)))
      else some (s.goto e .ended)
    | _ => none

/-- All threads have ended, and `_run_waterfall` returns or raises the first error. -/
def Finished (s : Relay) : Prop := s.toPut = [] ∧ ∀ e < w.edges, s.pc e = .ended

/-! ## What a step does -/

/-- The steps, one for each way a thread goes on. -/
inductive Stepped (s : Relay) : Relay → Prop where
  | put {x : Option FileItem} {rest : List (Option FileItem)} : s.toPut = x :: rest →
      Stepped s { s.push 0 x with toPut := rest }
  | ready {e : Nat} : s.pc e = .starting → Stepped s (s.goto e .waiting)
  | taken {e : Nat} {item : FileItem} {rest : List (Option FileItem)} : s.pc e = .waiting →
      s.queues e = some item :: rest → Stepped s ((s.pop e rest).goto e (.taken item))
  | sentinel {e : Nat} {rest : List (Option FileItem)} : s.pc e = .waiting →
      s.queues e = none :: rest → Stepped s
        (if e + 1 < w.edges then ((s.pop e rest).goto e .ended).push (e + 1) none
          else (s.pop e rest).goto e .ended)
  | skip {e : Nat} {item : FileItem} : s.pc e = .taken item → s.stop = true →
      Stepped s (s.goto e .waiting)
  | look {e : Nat} {item : FileItem} : s.pc e = .taken item → s.stop = false →
      Stepped s (s.goto e (.checking item))
  | check {e : Nat} {item : FileItem} : s.pc e = .checking item →
      s.store e item.relpath = some item.size → Stepped s (s.goto e (.copying item))
  | present {e : Nat} {item : FileItem} : s.pc e = .copying item →
      s.store (e + 1) item.relpath = some item.size →
        Stepped s ((s.transfer e item).goto e (.cleaning item))
  | copied {e : Nat} {item : FileItem} : s.pc e = .copying item → Stepped s
      (((s.setFile (e + 1) item.relpath (some item.size)).transfer e item).goto e (.cleaning item))
  | clean {e : Nat} {item : FileItem} : s.pc e = .cleaning item → Stepped s
      (if w.removes e item then (s.goto e (.forwarding item)).setFile e item.relpath none
        else s.goto e (.forwarding item))
  | forward {e : Nat} {item : FileItem} : s.pc e = .forwarding item → Stepped s
      (if w.passesTo (e + 1) item then ((s.pass e item).goto e .waiting).push (e + 1) (some item)
        else (s.pass e item).goto e .waiting)
  | raised {e : Nat} : s.pc e = .starting ∨ (∃ item, s.pc e = .checking item) ∨
      (∃ item, s.pc e = .copying item) ∨ (∃ item, s.pc e = .cleaning item) → Stepped s (s.fail e)
  | copyFailed {e size : Nat} {item : FileItem} : s.pc e = .copying item →
      Stepped s ((s.setFile (e + 1) item.relpath (some size)).fail e)
  | cleanFailed {e : Nat} {item : FileItem} : s.pc e = .cleaning item → w.removes e item = true →
      Stepped s ((s.setFile e item.relpath none).fail e)
  | spread {e next : Nat} : s.pc e = .stopping next → next < w.edges →
      Stepped s ((s.push next none).goto e (.stopping (next + 1)))
  | spreadLast {e next : Nat} : s.pc e = .stopping next → w.edges ≤ next →
      Stepped s (s.goto e .ended)

variable {w}

theorem stepped_of_step {a : RelayAction} {s s' : Relay} (h : w.step a s = some s') :
    Stepped w s s' := by
  cases a with
  | put =>
    simp only [step] at h
    split at h
    · cases h
    · rename_i x rest hput
      cases h
      exact .put hput
  | ready e =>
    simp only [step] at h
    split at h
    · rename_i hpc
      cases h
      exact .ready hpc
    · cases h
  | get e =>
    simp only [step] at h
    split at h
    · rename_i item rest hpc hqueue
      cases h
      exact .taken hpc hqueue
    · rename_i rest hpc hqueue
      cases h
      exact .sentinel hpc hqueue
    · cases h
  | look e =>
    simp only [step] at h
    split at h
    · rename_i item hpc
      cases h
      cases hstop : s.stop with
      | true => exact .skip hpc hstop
      | false => exact .look hpc hstop
    · cases h
  | check e =>
    simp only [step] at h
    split at h
    · rename_i item hpc
      split at h
      · rename_i hstore
        cases h
        exact .check hpc hstore
      · cases h
    · cases h
  | present e =>
    simp only [step] at h
    split at h
    · rename_i item hpc
      split at h
      · rename_i hstore
        cases h
        exact .present hpc hstore
      · cases h
    · cases h
  | copied e =>
    simp only [step] at h
    split at h
    · rename_i item hpc
      cases h
      exact .copied hpc
    · cases h
  | clean e =>
    simp only [step] at h
    split at h
    · rename_i item hpc
      cases h
      exact .clean hpc
    · cases h
  | forward e =>
    simp only [step] at h
    split at h
    · rename_i item hpc
      cases h
      exact .forward hpc
    · cases h
  | raised e =>
    simp only [step] at h
    split at h
    · rename_i hpc
      cases h
      exact .raised (.inl hpc)
    · rename_i item hpc
      cases h
      exact .raised (.inr (.inl ⟨item, hpc⟩))
    · rename_i item hpc
      cases h
      exact .raised (.inr (.inr (.inl ⟨item, hpc⟩)))
    · rename_i item hpc
      cases h
      exact .raised (.inr (.inr (.inr ⟨item, hpc⟩)))
    · cases h
  | copyFailed e size =>
    simp only [step] at h
    split at h
    · rename_i item hpc
      cases h
      exact .copyFailed hpc
    · cases h
  | cleanFailed e =>
    simp only [step] at h
    split at h
    · rename_i item hpc
      split at h
      · rename_i hremoves
        cases h
        exact .cleanFailed hpc hremoves
      · cases h
    · cases h
  | spread e =>
    simp only [step] at h
    split at h
    · rename_i next hpc
      split at h
      · rename_i hnext
        cases h
        exact .spread hpc hnext
      · rename_i hnext
        cases h
        exact .spreadLast hpc (by omega)
    · cases h

end Waterfall

end Transfer

end Ds4Spark
