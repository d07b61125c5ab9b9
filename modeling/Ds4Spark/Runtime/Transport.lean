import Ds4Spark.Runtime.TensorChannel
import Mathlib.Data.List.Infix

/-!
# Ds4Spark.Runtime.Transport

How the patched `isend_tensor_dict` and `irecv_tensor_dict` choose the transport of every tensor: the TCP
channel, or `torch.distributed` over the CPU group or the device group.

The sender decides with the tensor in hand, the receiver with its metadata. What vLLM has for the split of a
dictionary and for the choice of all-gather tensors is a parameter (`Platform`), with what its own version
does as assumptions (`Platform.Documented`).
-/

namespace Ds4Spark
namespace Runtime

/-! ## Tensors and metadata -/

structure Tensor where
  device : String
  dtype : String
  size : List Nat
deriving DecidableEq

def Tensor.numel (t : Tensor) : Nat := t.size.prod

def Tensor.isCuda (t : Tensor) : Bool := t.device = "cuda"

def Tensor.isCpu (t : Tensor) : Bool := t.device = "cpu"

/-- `tensor.to("cpu")`. -/
def Tensor.toCpu (t : Tensor) : Tensor := { t with device := "cpu" }

inductive Value where
  | tensor (t : Tensor)
  | object (repr : String)

abbrev TensorDict := List (String × Value)

/-- `TensorMetadata`, `TensorMetadataCpuStaged`, or an object that is not a tensor. -/
inductive Metadata where
  | tensor (device dtype : String) (size : List Nat)
  | cpuStaged (targetDevice dtype : String) (size : List Nat)
  | object (repr : String)

structure Platform where
  elementSize : String → Nat
  splitter : Option (TensorDict → List (String × Metadata) × List Tensor)
  stagedSplitter : Option (TensorDict → List (String × Metadata) × List Tensor)
  allGatherWorldSize : Nat
  shouldUseAllGather : String → Nat → Bool

/-! ## Settings -/

structure Settings where
  channel : Envs
  cpuStagedTensorDict : Bool
  pyncclTensorDict : Bool
  torchPgTensorDict : Bool

structure Group where
  uniqueName : String
  worldSize : Nat
  hasChannel : Bool
  useCpuCustomSendRecv : Bool

def isPpGroup (group : Group) : Bool := ['p', 'p'] <:+: group.uniqueName.toList

def rejectConflictingTransports (envs : Settings) : Except String Unit :=
  if envs.cpuStagedTensorDict then
    .error ("VLLM_DS4_PP_TCP_TENSOR_DICT and VLLM_DS4_PP_CPU_STAGED_TENSOR_DICT cannot both be enabled.")
  else if envs.pyncclTensorDict then
    .error ("VLLM_DS4_PP_TCP_TENSOR_DICT and VLLM_DS4_PP_PYNCCL_TENSOR_DICT cannot both be enabled.")
  else if envs.torchPgTensorDict then
    .error ("VLLM_DS4_PP_TCP_TENSOR_DICT and VLLM_DS4_PP_TORCH_PG_TENSOR_DICT cannot both be enabled.")
  else .ok ()

def canUseTcp (envs : Settings) (group : Group) : Except String Bool :=
  if !envs.channel.tensorDict then .ok false
  else if !isPpGroup group || group.worldSize ≤ 1 then .ok false
  else do
    rejectConflictingTransports envs
    if !group.hasChannel then
      .error ("VLLM_DS4_PP_TCP_TENSOR_DICT is enabled, but the PP group has no DS4 TCP tensor channel.")
    else .ok true

def shouldCpuStage (envs : Settings) (group : Group) : Except String Bool :=
  if !envs.cpuStagedTensorDict then .ok false
  else if !isPpGroup group || group.worldSize ≤ 1 then .ok false
  else if envs.channel.tensorDict then
    .error ("VLLM_DS4_PP_CPU_STAGED_TENSOR_DICT and VLLM_DS4_PP_TCP_TENSOR_DICT cannot both be enabled.")
  else if envs.pyncclTensorDict then
    .error ("VLLM_DS4_PP_CPU_STAGED_TENSOR_DICT and VLLM_DS4_PP_PYNCCL_TENSOR_DICT cannot both be enabled.")
  else .ok true

def canUseBridge (envs : Settings) (group : Group) : Except String Bool := do
  if ← canUseTcp envs group then .ok true else shouldCpuStage envs group

/-! ## The split of a dictionary -/

def metadataOf (cpuStageCuda : Bool) : Value → Metadata
  | .object repr => .object repr
  | .tensor t => if cpuStageCuda && t.isCuda then .cpuStaged t.device t.dtype t.size
      else .tensor t.device t.dtype t.size

def listedTensor (cpuStageCuda : Bool) : Value → Option Tensor
  | .object _ => none
  | .tensor t => some (if cpuStageCuda && t.isCuda then t.toCpu else t)

def splitTensorDictCompat (tensorDict : TensorDict) (cpuStageCuda : Bool) :
    List (String × Metadata) × List Tensor :=
  (tensorDict.map (fun kv => (kv.1, metadataOf cpuStageCuda kv.2)),
    tensorDict.filterMap (fun kv => listedTensor cpuStageCuda kv.2))

/-! ## Both ends -/

inductive Transport where
  | tcp
  | cpuGroup
  | deviceGroup
deriving DecidableEq

/-- What is sent, or awaited, for an entry. -/
structure Op where
  key : String
  transport : Transport
  bytes : Nat
deriving DecidableEq

/-- How a dictionary travels: by vLLM's own functions, by the device communicator, or entry by entry. -/
inductive Plan where
  | original
  | cpuCustom
  | entries (ops : List Op)

def commGroup (t : Tensor) : Transport := if t.isCpu then .cpuGroup else .deviceGroup

section Ends

variable (sys : Platform) (envs : Settings) (group : Group)

/-- `_split_tensor_dict`; `stagedSplitter` is `none` when the splitter does not know the argument. -/
def splitTensorDict (tensorDict : TensorDict) (cpuStageCuda : Bool) : List (String × Metadata) × List Tensor :=
  match cpuStageCuda, sys.splitter, sys.stagedSplitter with
  | false, some splitter, _ => splitter tensorDict
  | true, some _, some splitter => splitter tensorDict
  | _, _, _ => splitTensorDictCompat tensorDict cpuStageCuda

/-- `tensor.reshape(size, -1)[rank]`, when the entry is gathered. -/
def sliced (key : String) (t : Tensor) : Except String Tensor :=
  if !sys.shouldUseAllGather key t.numel then .ok t
  else if sys.allGatherWorldSize = 0 ∨ ¬ sys.allGatherWorldSize ∣ t.numel then
    .error ("shape '[" ++ toString sys.allGatherWorldSize ++ ", -1]' is invalid for input of size " ++
      toString t.numel)
  else .ok { t with size := [t.numel / sys.allGatherWorldSize] }

def Tensor.bytes (t : Tensor) : Nat := t.numel * sys.elementSize t.dtype

def sendOneTensor (key : String) (tensor : Tensor) : Except String (Option Op) :=
  if tensor.numel = 0 then .ok none
  else do
    let tensor ← sliced sys key tensor
    if tensor.isCuda then
      if !group.hasChannel then .error ("'NoneType' object has no attribute 'can_handle'")
      else if canHandle envs.channel tensor.numel (sys.elementSize tensor.dtype) then
        .ok (some ⟨key, .tcp, tensor.bytes sys⟩)
      else .ok (some ⟨key, commGroup tensor, tensor.bytes sys⟩)
    else .ok (some ⟨key, commGroup tensor, tensor.bytes sys⟩)

def sendTensorPayloads : List (String × Tensor) → Except String (List Op)
  | [] => .ok []
  | (key, tensor) :: rest => do
    let op ← sendOneTensor sys envs group key tensor
    let ops ← sendTensorPayloads rest
    .ok (op.toList ++ ops)

def tensorKey (kv : String × Value) : Option String :=
  match kv.2 with
  | .tensor _ => some kv.1
  | .object _ => none

def isendTensorDict (tensorDict : TensorDict) : Except String Plan := do
  if !(← canUseBridge envs group) then .ok .original
  else if group.useCpuCustomSendRecv then .ok .cpuCustom
  else
    let staged ← shouldCpuStage envs group
    let tensorList := (splitTensorDict sys tensorDict staged).2
    let tensorKeys := tensorDict.filterMap tensorKey
    if tensorKeys.length ≠ tensorList.length then .error ("AssertionError")
    else
      let ops ← sendTensorPayloads sys envs group (tensorKeys.zip tensorList)
      .ok (.entries ops)

/-- The metadata that the sender sends before the tensors. -/
def sentMetadata (tensorDict : TensorDict) : Except String (List (String × Metadata)) := do
  let staged ← shouldCpuStage envs group
  .ok (splitTensorDict sys tensorDict staged).1

/-- `_recv_metadata_entry` up to the tensor that is awaited: `full_tensor`, or a slice of it. -/
def recvMetadataEntry (key : String) (value : Metadata) : Except String (Option Op) :=
  match value with
  | .object _ => .ok none
  | .cpuStaged _ dtype size =>
    let fullTensor : Tensor := ⟨"cpu", dtype, size⟩
    if fullTensor.numel = 0 then .ok none
    else do
      let tensor ← sliced sys key fullTensor
      .ok (some ⟨key, commGroup tensor, tensor.bytes sys⟩)
  | .tensor device dtype size => do
    let tcpStaged ← if device = "cuda" then canUseTcp envs group else .ok false
    let fullTensor : Tensor := ⟨if tcpStaged then "cpu" else device, dtype, size⟩
    if fullTensor.numel = 0 then .ok none
    else do
      let tensor ← sliced sys key fullTensor
      .ok (some ⟨key, if tcpStaged then .tcp else commGroup tensor, tensor.bytes sys⟩)

def recvTensorPayloads : List (String × Metadata) → Except String (List Op)
  | [] => .ok []
  | (key, value) :: rest => do
    let op ← recvMetadataEntry sys envs group key value
    let ops ← recvTensorPayloads rest
    .ok (op.toList ++ ops)

/-- `irecv_tensor_dict`; `torch.distributed` is initialized, and the group has other ranks. -/
def irecvTensorDict (metadata : Except String (List (String × Metadata))) : Except String Plan := do
  if !(← canUseBridge envs group) then .ok .original
  else if group.useCpuCustomSendRecv then .ok .cpuCustom
  else
    let received ← metadata
    let ops ← recvTensorPayloads sys envs group received
    .ok (.entries ops)

end Ends

/-- What vLLM's own functions do: the splitter replaces every tensor by its metadata and lists the tensors, and
a gathered entry can be cut into equal slices. -/
structure Platform.Documented (sys : Platform) : Prop where
  splitter : ∀ f, sys.splitter = some f → ∀ d, f d = splitTensorDictCompat d false
  stagedSplitter : ∀ f, sys.stagedSplitter = some f → ∀ d, f d = splitTensorDictCompat d true
  gathers : ∀ key numel, sys.shouldUseAllGather key numel = true →
    0 < sys.allGatherWorldSize ∧ sys.allGatherWorldSize ∣ numel

end Runtime
end Ds4Spark
