import Ds4Spark.Runtime.Reassembly
import Ds4Spark.Runtime.Transport

/-!
# Ds4Spark.Runtime.TransportAgree

When the two ends of a pipeline choose the same transport for every tensor.

The sender asks `can_handle`, which has the least number of bytes of the settings in it; the receiver takes the
channel for every CUDA tensor.

* `plans_agree_iff`: for one dictionary, the plans are equal exactly when no CUDA tensor is too small.
* `transports_agree_iff`: the same over a run, in which then no check of the channel fails.
-/

namespace Ds4Spark
namespace Runtime

section Entries

variable {sys : Platform} {envs : Settings} {group : Group}

/-- The elements of a tensor that are sent by one rank. -/
def sentNumel (sys : Platform) (key : String) (t : Tensor) : Nat :=
  if sys.shouldUseAllGather key t.numel then t.numel / sys.allGatherWorldSize else t.numel

/-- Where the channel is in use, a CUDA tensor with elements has the least number of bytes to send. -/
def Covered (sys : Platform) (envs : Settings) (group : Group) (key : String) (t : Tensor) : Prop :=
  canUseTcp envs group = .ok true → group.useCpuCustomSendRecv = false → t.device = "cuda" → t.numel ≠ 0 →
    envs.channel.minBytes ≤ ((sentNumel sys key t * sys.elementSize t.dtype : Nat) : Int)

theorem sliced_ok (hdoc : sys.Documented) (key : String) (t : Tensor) :
    ∃ t', sliced sys key t = .ok t' ∧ t'.device = t.device ∧ t'.dtype = t.dtype ∧
      t'.numel = sentNumel sys key t := by
  unfold sliced sentNumel
  cases huse : sys.shouldUseAllGather key t.numel with
  | false => exact ⟨t, rfl, rfl, rfl, rfl⟩
  | true =>
    obtain ⟨hpos, hdvd⟩ := hdoc.gathers key t.numel huse
    have hcut : ¬ (sys.allGatherWorldSize = 0 ∨ ¬ sys.allGatherWorldSize ∣ t.numel) := by
      rintro (hzero | hnot)
      · omega
      · exact hnot hdvd
    refine ⟨{ t with size := [t.numel / sys.allGatherWorldSize] }, ?_, rfl, rfl, ?_⟩
    · simp only [Bool.not_true, Bool.false_eq_true, if_false, if_neg hcut]
    · exact Nat.mul_one _

theorem sentNumel_pos (hdoc : sys.Documented) (key : String) {t : Tensor} (h : t.numel ≠ 0) :
    sentNumel sys key t ≠ 0 := by
  unfold sentNumel
  split
  next huse =>
    obtain ⟨hpos, hdvd⟩ := hdoc.gathers key t.numel huse
    have := Nat.div_pos (Nat.le_of_dvd (Nat.pos_of_ne_zero h) hdvd) hpos
    omega
  next => exact h

/-- The sender's side of an entry. -/
theorem sendOneTensor_ok (hdoc : sys.Documented) (key : String) {t : Tensor} (hnumel : t.numel ≠ 0)
    (hchannel : t.device = "cuda" → group.hasChannel = true) :
    sendOneTensor sys envs group key t = .ok (some ⟨key,
      if t.device = "cuda" ∧ canHandle envs.channel (sentNumel sys key t) (sys.elementSize t.dtype) = true
        then .tcp else commGroup t,
      sentNumel sys key t * sys.elementSize t.dtype⟩) := by
  obtain ⟨t', hsliced, hdevice, hdtype, hsize⟩ := sliced_ok hdoc key t
  rw [sendOneTensor, if_neg hnumel, hsliced]
  by_cases hcuda : t.device = "cuda"
  · have hc := hchannel hcuda
    cases hcan : canHandle envs.channel (sentNumel sys key t) (sys.elementSize t.dtype) <;>
      simp [bind, Except.bind, Tensor.isCuda, Tensor.isCpu, commGroup, Tensor.bytes, hdevice, hdtype, hsize,
        hcuda, hc, hcan]
  · simp [bind, Except.bind, Tensor.isCuda, Tensor.isCpu, commGroup, Tensor.bytes, hdevice, hdtype, hsize,
      hcuda]

/-- The receiver's side of an entry, for a tensor that is awaited as `full`. -/
theorem awaited_ok (hdoc : sys.Documented) (key : String) (full : Tensor) (tcp : Bool) :
    (do let tensor ← sliced sys key full
        .ok (some (Op.mk key (if tcp then .tcp else commGroup tensor) (tensor.bytes sys))) :
      Except String (Option Op)) =
    .ok (some ⟨key, if tcp then .tcp else commGroup full, sentNumel sys key full * sys.elementSize full.dtype⟩) := by
  obtain ⟨t', hsliced, hdevice, hdtype, hsize⟩ := sliced_ok hdoc key full
  rw [hsliced]
  simp [bind, Except.bind, commGroup, Tensor.isCpu, Tensor.bytes, hdevice, hdtype, hsize]

/-- With the channel in use no tensor is staged. -/
theorem canUseTcp_true (h : canUseTcp envs group = .ok true) :
    envs.channel.tensorDict = true ∧ group.hasChannel = true ∧ shouldCpuStage envs group = .ok false := by
  unfold canUseTcp rejectConflictingTransports at h
  unfold shouldCpuStage
  cases htcp : envs.channel.tensorDict <;> cases hstaged : envs.cpuStagedTensorDict <;>
    cases hchannel : group.hasChannel <;> simp [htcp, hstaged, hchannel, bind, Except.bind] at h ⊢
  all_goals (repeat' split at h) <;> simp_all

/-- In the bridge, either the channel is in use or CUDA tensors are staged. -/
theorem bridged (h : canUseBridge envs group = .ok true) :
    (canUseTcp envs group = .ok true ∧ shouldCpuStage envs group = .ok false) ∨
      (canUseTcp envs group = .ok false ∧ shouldCpuStage envs group = .ok true) := by
  unfold canUseBridge at h
  cases htcp : canUseTcp envs group with
  | error e => rw [htcp] at h; cases h
  | ok tcp =>
    rw [htcp] at h
    cases tcp with
    | true => exact .inl ⟨rfl, (canUseTcp_true htcp).2.2⟩
    | false => exact .inr ⟨rfl, h⟩

theorem entry_tcp (hdoc : sys.Documented) (htcp : canUseTcp envs group = .ok true)
    (hcustom : group.useCpuCustomSendRecv = false) (key : String) (t : Tensor) :
    ∃ sent awaited, sendOneTensor sys envs group key t = .ok sent ∧
      recvMetadataEntry sys envs group key (.tensor t.device t.dtype t.size) = .ok awaited ∧
      sent.isSome = awaited.isSome ∧ (sent = awaited ↔ Covered sys envs group key t) := by
  obtain ⟨hdict, hchannel, _⟩ := canUseTcp_true htcp
  by_cases hnumel : t.numel = 0
  · refine ⟨none, none, by rw [sendOneTensor, if_pos hnumel], ?_, rfl, ?_⟩
    · have hfull : ∀ device, (⟨device, t.dtype, t.size⟩ : Tensor).numel = 0 := fun _ => hnumel
      by_cases hcuda : t.device = "cuda" <;> simp [recvMetadataEntry, hcuda, htcp, bind, Except.bind, hfull]
    · exact ⟨fun _ _ _ _ hne => absurd hnumel hne, fun _ => rfl⟩
  · refine ⟨_, some ⟨key, if t.device = "cuda" then .tcp else commGroup t,
      sentNumel sys key t * sys.elementSize t.dtype⟩, sendOneTensor_ok hdoc key hnumel (fun _ => hchannel), ?_,
      rfl, ?_⟩
    · rw [recvMetadataEntry]
      by_cases hcuda : t.device = "cuda"
      · rw [if_pos hcuda, if_pos hcuda, htcp]
        exact (if_neg hnumel).trans (awaited_ok hdoc key ⟨"cpu", t.dtype, t.size⟩ true)
      · rw [if_neg hcuda, if_neg hcuda]
        exact (if_neg hnumel).trans (awaited_ok hdoc key t false)
    · have hsent := sentNumel_pos hdoc key hnumel
      by_cases hcuda : t.device = "cuda"
      · simp [Covered, htcp, hcustom, hcuda, hnumel, canHandle, hdict, hsent, commGroup, Tensor.isCpu]
      · simp [Covered, hcuda]

theorem entry_staged (hdoc : sys.Documented) (htcp : canUseTcp envs group = .ok false) (key : String)
    (t : Tensor) :
    ∃ sent awaited, sendOneTensor sys envs group key (if t.isCuda then t.toCpu else t) = .ok sent ∧
      recvMetadataEntry sys envs group key (metadataOf true (.tensor t)) = .ok awaited ∧
      sent.isSome = awaited.isSome ∧ (sent = awaited ↔ Covered sys envs group key t) := by
  have hcovered : Covered sys envs group key t := by
    intro htrue
    rw [htcp] at htrue
    cases htrue
  by_cases hcuda : t.device = "cuda"
  · have hlisted : (if t.isCuda then t.toCpu else t) = t.toCpu := if_pos (by simp [Tensor.isCuda, hcuda])
    have hmeta : metadataOf true (.tensor t) = .cpuStaged t.device t.dtype t.size := by
      simp [metadataOf, Tensor.isCuda, hcuda]
    have hcpu : t.toCpu.device ≠ "cuda" := (by decide : "cpu" ≠ "cuda")
    rw [hlisted, hmeta]
    by_cases hnumel : t.numel = 0
    · exact ⟨none, none, if_pos hnumel, if_pos hnumel, rfl, iff_of_true rfl hcovered⟩
    · refine ⟨_, _, sendOneTensor_ok hdoc key (t := t.toCpu) hnumel (fun h => absurd h hcpu),
        (if_neg hnumel).trans (awaited_ok hdoc key t.toCpu false), rfl, iff_of_true ?_ hcovered⟩
      simp [Tensor.toCpu]
  · have hlisted : (if t.isCuda then t.toCpu else t) = t := if_neg (by simp [Tensor.isCuda, hcuda])
    have hmeta : metadataOf true (.tensor t) = .tensor t.device t.dtype t.size := by
      simp [metadataOf, Tensor.isCuda, hcuda]
    rw [hlisted, hmeta, recvMetadataEntry, if_neg hcuda]
    by_cases hnumel : t.numel = 0
    · exact ⟨none, none, if_pos hnumel, if_pos hnumel, rfl, iff_of_true rfl hcovered⟩
    · refine ⟨_, _, sendOneTensor_ok hdoc key hnumel (fun h => absurd h hcuda),
        (if_neg hnumel).trans (awaited_ok hdoc key t false), rfl, iff_of_true ?_ hcovered⟩
      simp [hcuda]

/-- The two ends of an entry, in the bridge. -/
theorem entry_ok (hdoc : sys.Documented) (hbridge : canUseBridge envs group = .ok true)
    (hcustom : group.useCpuCustomSendRecv = false) {staged : Bool}
    (hstaged : shouldCpuStage envs group = .ok staged) (key : String) (t : Tensor) :
    ∃ sent awaited, sendOneTensor sys envs group key (if staged && t.isCuda then t.toCpu else t) = .ok sent ∧
      recvMetadataEntry sys envs group key (metadataOf staged (.tensor t)) = .ok awaited ∧
      sent.isSome = awaited.isSome ∧ (sent = awaited ↔ Covered sys envs group key t) := by
  rcases bridged hbridge with ⟨htcp, hstage⟩ | ⟨htcp, hstage⟩
  · rw [hstage] at hstaged
    cases hstaged
    exact entry_tcp hdoc htcp hcustom key t
  · rw [hstage] at hstaged
    cases hstaged
    exact entry_staged hdoc htcp key t

/-! ## One dictionary -/

/-- Every tensor of the dictionary is covered. -/
def AllCovered (sys : Platform) (envs : Settings) (group : Group) (tensorDict : TensorDict) : Prop :=
  ∀ key t, (key, Value.tensor t) ∈ tensorDict → Covered sys envs group key t

/-- The tensors of the list by their keys. -/
def listed (staged : Bool) (kv : String × Value) : Option (String × Tensor) :=
  (listedTensor staged kv.2).map (fun t => (kv.1, t))

theorem zip_listed (staged : Bool) (tensorDict : TensorDict) :
    (tensorDict.filterMap tensorKey).length = (tensorDict.filterMap (fun kv => listedTensor staged kv.2)).length ∧
      (tensorDict.filterMap tensorKey).zip (tensorDict.filterMap (fun kv => listedTensor staged kv.2)) =
        tensorDict.filterMap (listed staged) := by
  induction tensorDict with
  | nil => exact ⟨rfl, rfl⟩
  | cons kv rest ih =>
    obtain ⟨key, value⟩ := kv
    cases value with
    | object repr => exact ih
    | tensor t => exact ⟨congrArg (· + 1) ih.1, congrArg (List.cons _) ih.2⟩

/-- Entries that have an op at one end and at the other put the lists in step. -/
theorem toList_append_inj {o o' : Option Op} {ops ops' : List Op} (h : o.isSome = o'.isSome) :
    o.toList ++ ops = o'.toList ++ ops' ↔ o = o' ∧ ops = ops' := by
  cases o <;> cases o' <;> simp at h ⊢

/-- The lists of ops at the two ends, entry by entry. -/
theorem payloads_ok (hdoc : sys.Documented) (hbridge : canUseBridge envs group = .ok true)
    (hcustom : group.useCpuCustomSendRecv = false) {staged : Bool}
    (hstaged : shouldCpuStage envs group = .ok staged) (tensorDict : TensorDict) :
    ∃ sent awaited, sendTensorPayloads sys envs group (tensorDict.filterMap (listed staged)) = .ok sent ∧
      recvTensorPayloads sys envs group (tensorDict.map (fun kv => (kv.1, metadataOf staged kv.2))) =
        .ok awaited ∧
      (sent = awaited ↔ AllCovered sys envs group tensorDict) := by
  induction tensorDict with
  | nil => exact ⟨[], [], rfl, rfl, iff_of_true rfl (fun _ _ h => absurd h List.not_mem_nil)⟩
  | cons kv rest ih =>
    obtain ⟨key, value⟩ := kv
    obtain ⟨sent, awaited, hsent, hawaited, hiff⟩ := ih
    cases value with
    | object repr =>
      refine ⟨sent, awaited, hsent, ?_, ?_⟩
      · have hnone : recvMetadataEntry sys envs group key (metadataOf staged (.object repr)) = .ok none := rfl
        rw [List.map_cons, recvTensorPayloads, hnone, hawaited]
        rfl
      · rw [hiff]
        simp [AllCovered]
    | tensor t =>
      obtain ⟨o, o', ho, ho', hsome, hcovered⟩ := entry_ok hdoc hbridge hcustom hstaged key t
      refine ⟨o.toList ++ sent, o'.toList ++ awaited, ?_, ?_, ?_⟩
      · have hlist : ((key, Value.tensor t) :: rest).filterMap (listed staged) =
            (key, if staged && t.isCuda then t.toCpu else t) :: rest.filterMap (listed staged) := rfl
        rw [hlist, sendTensorPayloads, ho, hsent]
        rfl
      · rw [List.map_cons, recvTensorPayloads, ho', hawaited]
        rfl
      · rw [toList_append_inj hsome, hcovered, hiff]
        constructor
        · rintro ⟨hhead, hrest⟩ key' t' hmem
          rcases List.mem_cons.mp hmem with heq | hmem
          · cases heq
            exact hhead
          · exact hrest key' t' hmem
        · intro hall
          exact ⟨hall key t List.mem_cons_self, fun key' t' hmem => hall key' t' (List.mem_cons_of_mem _ hmem)⟩

theorem splitTensorDict_eq (hdoc : sys.Documented) (tensorDict : TensorDict) (staged : Bool) :
    splitTensorDict sys tensorDict staged = splitTensorDictCompat tensorDict staged := by
  unfold splitTensorDict
  cases staged with
  | false =>
    cases hf : sys.splitter with
    | none => rfl
    | some f => exact hdoc.splitter f hf tensorDict
  | true =>
    cases hf : sys.splitter with
    | none => rfl
    | some f =>
      cases hg : sys.stagedSplitter with
      | none => rfl
      | some g => exact hdoc.stagedSplitter g hg tensorDict

/-- Over one dictionary, the two ends have one plan exactly when every tensor is covered. -/
theorem plans_agree_iff (hdoc : sys.Documented) (envs : Settings) (group : Group) (tensorDict : TensorDict) :
    isendTensorDict sys envs group tensorDict =
      irecvTensorDict sys envs group (sentMetadata sys envs group tensorDict) ↔
    AllCovered sys envs group tensorDict := by
  unfold isendTensorDict irecvTensorDict sentMetadata
  have htrue : canUseTcp envs group = .ok true → canUseBridge envs group = .ok true := by
    intro htcp
    rw [canUseBridge, htcp]
    rfl
  cases hbridge : canUseBridge envs group with
  | error e =>
    refine iff_of_true rfl (fun key t _ htcp => ?_)
    rw [htrue htcp] at hbridge
    cases hbridge
  | ok bridge =>
    cases bridge with
    | false =>
      refine iff_of_true rfl (fun key t _ htcp => ?_)
      rw [htrue htcp] at hbridge
      cases hbridge
    | true =>
      cases hcustom : group.useCpuCustomSendRecv with
      | true =>
        refine iff_of_true rfl (fun key t _ _ hfalse => ?_)
        rw [hcustom] at hfalse
        cases hfalse
      | false =>
        obtain ⟨staged, hstaged⟩ : ∃ staged, shouldCpuStage envs group = .ok staged := by
          rcases bridged hbridge with ⟨_, h⟩ | ⟨_, h⟩
          · exact ⟨false, h⟩
          · exact ⟨true, h⟩
        obtain ⟨sent, awaited, hsent, hawaited, hiff⟩ :=
          payloads_ok hdoc hbridge hcustom hstaged tensorDict
        obtain ⟨hlength, hzip⟩ := zip_listed staged tensorDict
        rw [← hiff]
        simp only [hstaged, bind, Except.bind, splitTensorDict_eq hdoc, splitTensorDictCompat, hlength, hzip,
          hsent, hawaited, ne_eq, not_true, if_false, Bool.not_true, Bool.false_eq_true]
        simp

/-- With the default of one byte every tensor is covered. -/
theorem allCovered_default (hdoc : sys.Documented) (hsize : ∀ dtype, 0 < sys.elementSize dtype)
    (hmin : envs.channel.minBytes ≤ 1) (tensorDict : TensorDict) : AllCovered sys envs group tensorDict := by
  intro key t _ _ _ _ hnumel
  have hpos := Nat.mul_pos (Nat.pos_of_ne_zero (sentNumel_pos hdoc key hnumel)) (hsize t.dtype)
  omega

end Entries

/-! ## Runs -/

/-- The two ranks over their channel, with what is left of their entries. -/
structure Peers where
  conn : Connection
  sender : List Op
  receiver : List Op

inductive PeerAction where
  | send (tensor : List UInt8)
  | recv (buffer : List UInt8) (ports : List Nat)
  | sendGroup
  | recvGroup
  | thread (a : Action)

def Action.isThread : Action → Bool
  | .connect _ _ | .accept _ | .read _ _ | .finish _ | .fail _ => true
  | _ => false

/-- A rank takes its next entry: over the channel when its plan says so, else to the group. The sender waits for
the ready message. Threads run at any time. -/
def Peers.step (dst : Nat) (envs : Envs) (a : PeerAction) (p : Peers) : Option Peers :=
  match a, p.sender, p.receiver with
  | .send tensor, op :: rest, _ =>
    if op.transport = .tcp ∧ tensor.length = op.bytes then
      ((p.conn.step dst (.send tensor)).bind (Connection.step dst (.take p.conn.sendSeq))).map
        (fun conn => { p with conn := conn, sender := rest })
    else none
  | .recv buffer ports, _, op :: rest =>
    if op.transport = .tcp ∧ buffer.length = op.bytes then
      ((p.conn.step dst (.recv envs buffer ports)).bind (Connection.step dst (.announce p.conn.recvSeq))).map
        (fun conn => { p with conn := conn, receiver := rest })
    else none
  | .sendGroup, op :: rest, _ => if op.transport = .tcp then none else some { p with sender := rest }
  | .recvGroup, _, op :: rest => if op.transport = .tcp then none else some { p with receiver := rest }
  | .thread a, _, _ =>
    if a.isThread then (p.conn.step dst a).map (fun conn => { p with conn := conn }) else none
  | _, _, _ => none

/-- The sizes of the entries that go over the channel. -/
def tcpBytes (ops : List Op) : List Nat := (ops.filter (fun op => op.transport = .tcp)).map Op.bytes

/-- The messages announce the next entries, one after the other from number `n`. -/
def Pending (bytes : List Nat) : Nat → List Control → Prop
  | _, [] => True
  | n, .ready r :: rest => r.seq = n ∧ bytes[n]? = some r.bytes ∧ r.ports ≠ [] ∧ Pending bytes (n + 1) rest
  | _, .other _ :: _ => False

theorem Pending.concat {bytes : List Nat} {b : Nat} {ports : List Nat} (hports : ports ≠ []) :
    ∀ {n : Nat} {control : List Control}, Pending bytes n control → bytes[n + control.length]? = some b →
      Pending bytes n (control ++ [.ready ⟨n + control.length, b, ports⟩]) := by
  intro n control
  induction control generalizing n with
  | nil => intro _ hb; exact ⟨rfl, hb, hports, trivial⟩
  | cons c rest ih =>
    intro h hb
    cases c with
    | other typeName => exact h.elim
    | ready r =>
      obtain ⟨hseq, hbytes, hr, hrest⟩ := h
      have hnext : n + 1 + rest.length = n + (Control.ready r :: rest).length := by
        rw [List.length_cons]
        omega
      have hlast := ih hrest (by rw [hnext]; exact hb)
      rw [hnext] at hlast
      exact ⟨hseq, hbytes, hr, hlast⟩

/-- Both ranks are on their way through one list of entries, and no check has failed. -/
structure InStep (bytes : List Nat) (p : Peers) : Prop where
  sender : tcpBytes p.sender = bytes.drop p.conn.sendSeq
  receiver : tcpBytes p.receiver = bytes.drop p.conn.recvSeq
  pending : Pending bytes p.conn.sendSeq p.conn.control
  count : p.conn.sendSeq + p.conn.control.length = p.conn.recvSeq
  passed : ∀ k tensor e, p.conn.sends k ≠ some ⟨tensor, .raised e⟩

theorem tcpBytes_cons {op : Op} {rest : List Op} (h : op.transport = .tcp) :
    tcpBytes (op :: rest) = op.bytes :: tcpBytes rest := by
  simp [tcpBytes, h]

theorem tcpBytes_cons_group {op : Op} {rest : List Op} (h : op.transport ≠ .tcp) :
    tcpBytes (op :: rest) = tcpBytes rest := by
  simp [tcpBytes, h]

/-- The entry at the head of what is left is the next one. -/
theorem next_entry {bytes rest : List Nat} {b n : Nat} (h : b :: rest = bytes.drop n) :
    bytes[n]? = some b ∧ rest = bytes.drop (n + 1) := by
  constructor
  · rw [← Nat.add_zero n, ← List.getElem?_drop, ← h]
    rfl
  · rw [← List.tail_drop, ← h]
    rfl

theorem stripeCount_pos (envs : Envs) (byteCount : Nat) : 0 < stripeCount envs byteCount := by
  unfold stripeCount
  dsimp only
  omega

theorem checkReady_passes {r : Ready} {byteCount seq dst : Nat} (hseq : r.seq = seq)
    (hbytes : r.bytes = byteCount) (hports : r.ports ≠ []) :
    checkReady (.ready r) byteCount seq dst = .ok r := by
  simp [checkReady, hseq, hbytes, hports]

/-- The threads leave the calls and the messages as they are. -/
theorem thread_frame {dst : Nat} {a : Action} {s s' : Connection} (ha : a.isThread = true)
    (hstep : s.step dst a = some s') :
    s'.sendSeq = s.sendSeq ∧ s'.recvSeq = s.recvSeq ∧ s'.control = s.control ∧ s'.sends = s.sends := by
  have hthread : (∃ id, a = .accept id ∨ a = .finish id ∨ a = .fail id) →
      s'.sendSeq = s.sendSeq ∧ s'.recvSeq = s.recvSeq ∧ s'.control = s.control ∧ s'.sends = s.sends := by
    intro hkind
    obtain ⟨id, l, phase, _, rfl, _⟩ := Connection.thread_some hstep hkind
    exact ⟨rfl, rfl, rfl, rfl⟩
  cases a with
  | connect f t =>
    obtain ⟨st, l, _, _, _, _, _, rfl⟩ := Connection.connect_some hstep
    exact ⟨rfl, rfl, rfl, rfl⟩
  | accept id => exact hthread ⟨id, .inl rfl⟩
  | finish id => exact hthread ⟨id, .inr (.inl rfl)⟩
  | fail id => exact hthread ⟨id, .inr (.inr rfl)⟩
  | read id length =>
    obtain ⟨l, payload, received, call, _, _, _, _, _, _, rfl⟩ := Connection.read_some hstep
    exact ⟨rfl, rfl, rfl, rfl⟩
  | send tensor => cases ha
  | take seq => cases ha
  | recv envs buffer ports => cases ha
  | announce seq => cases ha
  | object typeName => cases ha

/-- A send finds the message of its own number and size, and passes its check. -/
theorem InStep.send {bytes : List Nat} {p : Peers} (h : InStep bytes p) {dst : Nat} {tensor : List UInt8}
    {op : Op} {rest : List Op} {conn : Connection} (hsender : p.sender = op :: rest)
    (htcp : op.transport = .tcp) (hlength : tensor.length = op.bytes)
    (hconn : (p.conn.step dst (.send tensor)).bind (Connection.step dst (.take p.conn.sendSeq)) = some conn) :
    InStep bytes { p with conn := conn, sender := rest } := by
  obtain ⟨sent, hsent, htake⟩ := Option.bind_eq_some_iff.mp hconn
  obtain rfl := Option.some.inj hsent
  obtain ⟨tensor', ready, control, hsend, hcontrol, hcases⟩ := Connection.take_some htake
  dsimp only at hsend hcontrol
  rw [Function.update_self] at hsend
  cases hsend
  have hpending := h.pending
  have hnext := h.sender
  rw [hsender, tcpBytes_cons htcp] at hnext
  obtain ⟨hbytes, hrest⟩ := next_entry hnext
  rw [hcontrol] at hpending
  cases ready with
  | other typeName => exact hpending.elim
  | ready r =>
    obtain ⟨hseq, hr, hports, hlater⟩ := hpending
    rw [hbytes, Option.some_inj] at hr
    rcases hcases with ⟨e, hcheck, rfl⟩ | ⟨r', _, _, _, rfl⟩
    · rw [checkReady_passes hseq (hr.symm.trans hlength.symm) hports] at hcheck
      cases hcheck
    · refine ⟨hrest, h.receiver, hlater, ?_, ?_⟩
      · have hcount := h.count
        rw [hcontrol, List.length_cons] at hcount
        dsimp only
        omega
      · intro k tensor'' e
        dsimp only
        by_cases hk : k = p.conn.sendSeq
        · rw [hk, Function.update_self]
          simp
        · rw [Function.update_of_ne hk, Function.update_of_ne hk]
          exact h.passed k tensor'' e

/-- A receive announces the next entry behind the ones that are announced. -/
theorem InStep.recv {bytes : List Nat} {p : Peers} (h : InStep bytes p) {dst : Nat} {envs : Envs}
    {buffer : List UInt8} {ports : List Nat} {op : Op} {rest : List Op} {conn : Connection}
    (hreceiver : p.receiver = op :: rest) (htcp : op.transport = .tcp) (hlength : buffer.length = op.bytes)
    (hconn : (p.conn.step dst (.recv envs buffer ports)).bind
      (Connection.step dst (.announce p.conn.recvSeq)) = some conn) :
    InStep bytes { p with conn := conn, receiver := rest } := by
  obtain ⟨opened, hopened, hannounce⟩ := Option.bind_eq_some_iff.mp hconn
  obtain ⟨hports, _, _, rfl⟩ := Connection.recv_some hopened
  obtain ⟨call, hcall, rfl⟩ := Connection.announce_some hannounce
  dsimp only at hcall
  rw [Function.update_self] at hcall
  cases hcall
  have hnext := h.receiver
  rw [hreceiver, tcpBytes_cons htcp] at hnext
  obtain ⟨hbytes, hrest⟩ := next_entry hnext
  have hne : ports ≠ [] := by
    rintro rfl
    have := stripeCount_pos envs buffer.length
    rw [List.length_nil] at hports
    omega
  refine ⟨h.sender, hrest, ?_, ?_, h.passed⟩
  · have hlast := h.pending.concat hne (by rw [h.count]; exact hbytes)
    rw [h.count, ← hlength] at hlast
    exact hlast
  · have hcount := h.count
    dsimp only
    rw [List.length_append, List.length_singleton]
    omega

theorem inStep_step {bytes : List Nat} {dst : Nat} {envs : Envs} {a : PeerAction} {p p' : Peers}
    (hstep : Peers.step dst envs a p = some p') (h : InStep bytes p) : InStep bytes p' := by
  unfold Peers.step at hstep
  split at hstep
  next tensor op rest _ hsender =>
    split at hstep
    next hop =>
      obtain ⟨conn, hconn, rfl⟩ := Option.map_eq_some_iff.mp hstep
      exact h.send hsender hop.1 hop.2 hconn
    next => cases hstep
  next buffer ports _ op rest hreceiver =>
    split at hstep
    next hop =>
      obtain ⟨conn, hconn, rfl⟩ := Option.map_eq_some_iff.mp hstep
      exact h.recv hreceiver hop.1 hop.2 hconn
    next => cases hstep
  next op rest _ hsender =>
    split at hstep
    next => cases hstep
    next hop =>
      cases hstep
      have hsame := h.sender
      rw [hsender, tcpBytes_cons_group hop] at hsame
      exact ⟨hsame, h.receiver, h.pending, h.count, h.passed⟩
  next _ op rest hreceiver =>
    split at hstep
    next => cases hstep
    next hop =>
      cases hstep
      have hsame := h.receiver
      rw [hreceiver, tcpBytes_cons_group hop] at hsame
      exact ⟨h.sender, hsame, h.pending, h.count, h.passed⟩
  next a =>
    split at hstep
    next ha =>
      obtain ⟨conn, hconn, rfl⟩ := Option.map_eq_some_iff.mp hstep
      obtain ⟨hsendSeq, hrecvSeq, hcontrol, hsends⟩ := thread_frame ha hconn
      refine ⟨?_, ?_, ?_, ?_, ?_⟩
      · rw [hsendSeq]; exact h.sender
      · rw [hrecvSeq]; exact h.receiver
      · rw [hsendSeq, hcontrol]; exact h.pending
      · rw [hsendSeq, hcontrol, hrecvSeq]; exact h.count
      · rw [hsends]; exact h.passed
    next => cases hstep
  next => cases hstep

/-- Ranks with one list of entries never fail a check of the channel. -/
theorem checks_pass {dst : Nat} {envs : Envs} {as : List PeerAction} {ops : List Op} {p : Peers}
    (h : Leads (Peers.step dst envs) as ⟨Connection.start, ops, ops⟩ p) (k : Nat) (tensor : List UInt8)
    (e : String) : p.conn.sends k ≠ some ⟨tensor, .raised e⟩ := by
  have hstart : InStep (tcpBytes ops) ⟨Connection.start, ops, ops⟩ :=
    ⟨rfl, rfl, trivial, rfl, fun _ _ _ hk => by cases hk⟩
  have hend : InStep (tcpBytes ops) p :=
    h.invariant (fun _ _ _ hstep hI => inStep_step hstep hI) hstart
  exact hend.passed k tensor e

/-! ## The dictionaries of a run -/

/-- The entries of a plan. -/
def opsOf : Except String Plan → List Op
  | .ok (.entries ops) => ops
  | _ => []

def sentOps (sys : Platform) (envs : Settings) (group : Group) (dicts : List TensorDict) : List Op :=
  dicts.flatMap (fun d => opsOf (isendTensorDict sys envs group d))

def awaitedOps (sys : Platform) (envs : Settings) (group : Group) (dicts : List TensorDict) : List Op :=
  dicts.flatMap (fun d => opsOf (irecvTensorDict sys envs group (sentMetadata sys envs group d)))

/-- The ends agree on every dictionary, and no check of the channel fails in a run of theirs. -/
structure Agree (sys : Platform) (envs : Settings) (group : Group) (dicts : List TensorDict) : Prop where
  plans : ∀ d ∈ dicts, isendTensorDict sys envs group d =
    irecvTensorDict sys envs group (sentMetadata sys envs group d)
  checks : ∀ dst as p, Leads (Peers.step dst envs.channel) as
      ⟨Connection.start, sentOps sys envs group dicts, awaitedOps sys envs group dicts⟩ p →
    ∀ k tensor e, p.conn.sends k ≠ some ⟨tensor, .raised e⟩

/-- The ends agree exactly when no CUDA tensor with elements has fewer bytes to send than the settings ask for
the channel that they use. -/
theorem transports_agree_iff {sys : Platform} (hdoc : sys.Documented) (envs : Settings) (group : Group)
    (dicts : List TensorDict) :
    Agree sys envs group dicts ↔ ∀ d ∈ dicts, AllCovered sys envs group d := by
  constructor
  · intro h d hd
    exact (plans_agree_iff hdoc envs group d).mp (h.plans d hd)
  · intro h
    have hplans : ∀ d ∈ dicts, isendTensorDict sys envs group d =
        irecvTensorDict sys envs group (sentMetadata sys envs group d) :=
      fun d hd => (plans_agree_iff hdoc envs group d).mpr (h d hd)
    have hops : sentOps sys envs group dicts = awaitedOps sys envs group dicts := by
      rw [sentOps, awaitedOps, List.flatMap_congr (fun d hd => congrArg opsOf (hplans d hd))]
    refine ⟨hplans, ?_⟩
    intro dst as p hleads
    rw [hops] at hleads
    exact checks_pass hleads

/-- The splitter of vLLM, and its rule for gathered entries over two ranks. -/
def vllmPlatform : Platform where
  elementSize dtype := if dtype = "torch.float32" then 4 else 2
  splitter := some (fun d => splitTensorDictCompat d false)
  stagedSplitter := none
  allGatherWorldSize := 2
  shouldUseAllGather _ numel := numel % 2 = 0

theorem vllmPlatform_documented : vllmPlatform.Documented where
  splitter f hf d := by cases hf; rfl
  stagedSplitter f hf := by cases hf
  gathers key numel h := ⟨by decide, Nat.dvd_of_mod_eq_zero (of_decide_eq_true h)⟩

def ppGroup : Group := ⟨"pp:0", 2, true, false⟩

def tcpSettings (minBytes : Int) : Settings := ⟨⟨true, minBytes, 8, 262144⟩, false, false, false⟩

/-- A CUDA tensor of two elements, of which each rank sends one, and an entry that is no tensor. -/
def smallDict : TensorDict := [("hidden_states", .tensor ⟨"cuda", "torch.float32", [1, 2]⟩), ("step", .object "3")]

theorem transports_agree_iff_default : Agree vllmPlatform (tcpSettings 1) ppGroup [smallDict] := by
  refine (transports_agree_iff vllmPlatform_documented _ _ _).mpr (fun d _ => ?_)
  refine allCovered_default vllmPlatform_documented (fun dtype => ?_) (by decide) d
  dsimp only [vllmPlatform]
  split <;> omega

/-- With a least size of 4096 bytes the sender gives the tensor to the device group, and the receiver waits for
it on the channel. -/
theorem small_tensor_disagrees :
    isendTensorDict vllmPlatform (tcpSettings 4096) ppGroup smallDict =
      .ok (.entries [⟨"hidden_states", .deviceGroup, 4⟩]) ∧
    irecvTensorDict vllmPlatform (tcpSettings 4096) ppGroup
        (sentMetadata vllmPlatform (tcpSettings 4096) ppGroup smallDict) =
      .ok (.entries [⟨"hidden_states", .tcp, 4⟩]) ∧
    ¬ Agree vllmPlatform (tcpSettings 4096) ppGroup [smallDict] := by
  refine ⟨rfl, rfl, fun h => ?_⟩
  have hplans := h.plans smallDict List.mem_cons_self
  have hcovered := (plans_agree_iff vllmPlatform_documented _ _ _).mp hplans "hidden_states"
    ⟨"cuda", "torch.float32", [1, 2]⟩ List.mem_cons_self rfl rfl rfl (by decide)
  exact absurd hcovered (by decide)

end Runtime
end Ds4Spark
