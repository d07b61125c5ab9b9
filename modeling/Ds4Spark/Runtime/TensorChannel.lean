import Ds4Spark.Lib.Ranked
import Ds4Spark.Transfer.Receive

/-!
# Ds4Spark.Runtime.TensorChannel

The striped TCP channel for the tensors of a pipeline (`Ds4TcpTensorChannel`), for one sending and one
receiving rank. A tensor is the list of its bytes.

`recv` opens a listener for each stripe, starts its threads and sends a ready message. `send` waits for the
next ready message, compares sequence number and byte count, and starts a thread for each port of the message.
The control messages arrive in order. The threads take steps in any order, a read returns any number of the
bytes on their way, and every thread can fail at any point.

The system gives a listener any port that is not listened on, also one of an earlier listener. A stripe says
nothing of itself: its thread connects to the listener that has its port by then, and a listener takes the
first thread that connects. No one else connects.
-/

namespace Ds4Spark
namespace Runtime

open Transfer (Phase)

/-- The settings of the channel. -/
structure Envs where
  tensorDict : Bool
  minBytes : Int
  stripes : Int
  stripeMinBytes : Int

def canHandle (envs : Envs) (numel elementSize : Nat) : Bool :=
  if !envs.tensorDict then false
  else if numel = 0 then false
  else decide (envs.minBytes ≤ ((numel * elementSize : Nat) : Int))

def stripeCount (envs : Envs) (byteCount : Nat) : Nat :=
  let stripes := (max 1 envs.stripes).toNat
  let minBytes := (max 1 envs.stripeMinBytes).toNat
  let usefulStripes := max 1 ((byteCount + minBytes - 1) / minBytes)
  min (min stripes usefulStripes) (max 1 byteCount)

/-- The loop of `_stripe_ranges`: the index, the offset, and how many stripes are left. -/
def rangeLoop (base rem : Nat) : Nat → Nat → Nat → List (Nat × Nat)
  | _, _, 0 => []
  | index, offset, left + 1 =>
    let length := base + if index < rem then 1 else 0
    (offset, offset + length) :: rangeLoop base rem (index + 1) (offset + length) left

def stripeRanges (byteCount stripes : Nat) : List (Nat × Nat) :=
  let count := min (max 1 stripes) (max 1 byteCount)
  rangeLoop (byteCount / count) (byteCount % count) 0 0 count

/-! ## Messages and calls -/

structure Ready where
  seq : Nat
  bytes : Nat
  ports : List Nat

/-- What arrives at the sender: a ready message, or an object of another type. -/
inductive Control where
  | ready (r : Ready)
  | other (typeName : String)

def checkReady (ready : Control) (byteCount seq dst : Nat) : Except String Ready :=
  match ready with
  | .other typeName =>
    .error ("DS4 PP TCP tensor channel expected ready dict from " ++ toString dst ++ ", got " ++ typeName)
  | .ready r =>
    if r.seq ≠ seq then
      .error ("DS4 PP TCP tensor sequence mismatch for dst=" ++ toString dst ++ ": receiver_ready_seq=" ++
        toString r.seq ++ " sender_seq=" ++ toString seq ++ ".")
    else if r.bytes ≠ byteCount then
      .error ("DS4 PP TCP tensor byte mismatch for dst=" ++ toString dst ++ ": " ++ toString r.bytes ++
        " != " ++ toString byteCount)
    else if r.ports = [] then .error ("DS4 PP TCP tensor ready from " ++ toString dst ++ " has no ports")
    else .ok r

/-- A call of `send` waits for its ready message; then it starts its threads or raises. -/
inductive SendPhase where
  | waiting
  | started (ranges : List (Nat × Nat))
  | raised (error : String)

structure SendCall where
  tensor : List UInt8
  phase : SendPhase

structure RecvCall where
  buffer : List UInt8
  ranges : List (Nat × Nat)
  ports : List Nat
  announced : Bool

/-- The stripe `i` of the call `k`, at either end. -/
abbrev StripeId := Nat × Nat

/-- The thread of `_recv_stripe`: the port of its listener, its part of the buffer, and how far it is. -/
structure Listener where
  port : Nat
  start : Nat
  stop : Nat
  phase : Phase

/-- The thread of `_send_stripe`: the port from its message, its part of the tensor, and whether it is connected. -/
structure Stripe where
  port : Nat
  payload : List UInt8
  connected : Bool

/-- Both ranks: the calls by their sequence numbers, the control messages on their way, the threads of both
ends, and what the thread that connected to a listener sends. -/
structure Connection where
  sendSeq : Nat
  recvSeq : Nat
  sends : Nat → Option SendCall
  recvs : Nat → Option RecvCall
  control : List Control
  listeners : StripeId → Option Listener
  stripes : StripeId → Option Stripe
  arrived : StripeId → Option (List UInt8)

def Connection.start : Connection where
  sendSeq := 0
  recvSeq := 0
  sends _ := none
  recvs _ := none
  control := []
  listeners _ := none
  stripes _ := none
  arrived _ := none

/-! ## Steps -/

inductive Action where
  | send (tensor : List UInt8)
  | take (seq : Nat)
  | recv (envs : Envs) (buffer : List UInt8) (ports : List Nat)
  | announce (seq : Nat)
  | object (typeName : String)
  | connect (stripe listener : StripeId)
  | accept (listener : StripeId)
  | read (listener : StripeId) (length : Nat)
  | finish (listener : StripeId)
  | fail (listener : StripeId)

/-- The threads of the call `k` are started, one for each item. -/
def launch {α : Type} (threads : StripeId → Option α) (k : Nat) (items : List α) (id : StripeId) : Option α :=
  if id.1 = k then items[id.2]? else threads id

namespace Connection

/-- The stripes of the calls of `recv`. -/
def ids (s : Connection) : List StripeId :=
  (List.range s.recvSeq).flatMap fun k =>
    (List.range (((s.recvs k).map fun call => call.ports.length).getD 0)).map fun i => (k, i)

/-- The ports that are listened on. -/
def listeningPorts (s : Connection) : List Nat :=
  s.ids.filterMap fun id => ((s.listeners id).filter fun l => l.phase = .listening).map Listener.port

def setPhase (s : Connection) (id : StripeId) (listener : Listener) (phase : Phase) : Connection :=
  { s with listeners := Function.update s.listeners id (some { listener with phase := phase }) }

def take (dst : Nat) (seq : Nat) (s : Connection) : Option Connection :=
  match s.sends seq, s.control with
  | some ⟨tensor, .waiting⟩, ready :: rest =>
    match checkReady ready tensor.length seq dst with
    | .error e => some { s with
        control := rest
        sends := Function.update s.sends seq (some ⟨tensor, .raised e⟩) }
    | .ok r =>
      let ranges := stripeRanges tensor.length r.ports.length
      some { s with
        control := rest
        sends := Function.update s.sends seq (some ⟨tensor, .started ranges⟩)
        stripes := launch s.stripes seq ((r.ports.zip ranges).map fun p => ⟨p.1, slice tensor p.2.1 p.2.2, false⟩) }
  | _, _ => none

/-- The sender's thread connects to the listener at its port. -/
def connect (stripe listener : StripeId) (s : Connection) : Option Connection :=
  match s.stripes stripe, s.listeners listener with
  | some st, some l =>
    if st.connected = false ∧ l.port = st.port ∧ l.phase = .listening ∧ (s.arrived listener).isNone then
      some { s with
        stripes := Function.update s.stripes stripe (some { st with connected := true })
        arrived := Function.update s.arrived listener (some st.payload) }
    else none
  | _, _ => none

/-- `recv_into` of a thread, into its part of the buffer. -/
def read (id : StripeId) (length : Nat) (s : Connection) : Option Connection :=
  match s.listeners id, s.arrived id with
  | some l, some payload =>
    match l.phase, s.recvs id.1 with
    | .reading received, some call =>
      if 0 < length ∧ received + length ≤ l.stop - l.start ∧ received + length ≤ payload.length then
        some { s.setPhase id l (.reading (received + length)) with
          recvs := Function.update s.recvs id.1 (some { call with
            buffer := overwrite call.buffer ((payload.drop received).take length) (l.start + received) }) }
      else none
    | _, _ => none
  | _, _ => none

def step (dst : Nat) (a : Action) (s : Connection) : Option Connection :=
  match a with
  | .send tensor => some { s with
      sendSeq := s.sendSeq + 1
      sends := Function.update s.sends s.sendSeq (some ⟨tensor, .waiting⟩) }
  | .take seq => s.take dst seq
  | .recv envs buffer ports =>
    if ports.length = stripeCount envs buffer.length ∧ ports.Nodup ∧ ∀ port ∈ ports, port ∉ s.listeningPorts then
      let ranges := stripeRanges buffer.length ports.length
      some { s with
        recvSeq := s.recvSeq + 1
        recvs := Function.update s.recvs s.recvSeq (some ⟨buffer, ranges, ports, false⟩)
        listeners := launch s.listeners s.recvSeq
          ((ports.zip ranges).map fun p => ⟨p.1, p.2.1, p.2.2, .listening⟩) }
    else none
  | .announce seq =>
    match s.recvs seq with
    | some call =>
      if call.announced then none
      else some { s with
        control := s.control ++ [.ready ⟨seq, call.buffer.length, call.ports⟩]
        recvs := Function.update s.recvs seq (some { call with announced := true }) }
    | none => none
  | .object typeName => some { s with control := s.control ++ [.other typeName] }
  | .connect stripe listener => s.connect stripe listener
  | .accept id =>
    match s.listeners id, s.arrived id with
    | some l, some _ => if l.phase = .listening then some (s.setPhase id l (.reading 0)) else none
    | _, _ => none
  | .read id length => s.read id length
  | .finish id =>
    match s.listeners id with
    | some l => if l.phase = .reading (l.stop - l.start) then some (s.setPhase id l .done) else none
    | none => none
  | .fail id =>
    match s.listeners id with
    | some l => if l.phase ≠ .done then some (s.setPhase id l .failed) else none
    | none => none

/-- `handle.wait()` of the call `k` of `recv` returns and does not raise. -/
def Returns (s : Connection) (k : Nat) (call : RecvCall) : Prop :=
  ∀ i < call.ports.length, ∃ l, s.listeners (k, i) = some l ∧ l.phase = .done

/-! ## Ports that are given out again -/

/-- The sender's thread for the listener may still connect: its call has not raised, and it is not connected. -/
def awaited (s : Connection) (id : StripeId) : Bool :=
  match s.sends id.1 with
  | some ⟨_, .raised _⟩ => false
  | _ => !(s.stripes id).any Stripe.connected

/-- The ports of the listeners, closed or not, to which the sender's thread may still connect. -/
def awaitedPorts (s : Connection) : List Nat :=
  (s.ids.filter s.awaited).filterMap fun id => (s.listeners id).map Listener.port

/-- No new listener gets a port to which a sender's thread may still connect. -/
def Fresh (s : Connection) (a : Action) : Prop :=
  match a with
  | .recv _ _ ports => ∀ port ∈ ports, port ∉ s.awaitedPorts
  | _ => True

instance (s : Connection) (a : Action) : Decidable (s.Fresh a) :=
  match a with
  | .recv _ _ ports => inferInstanceAs (Decidable (∀ port ∈ ports, port ∉ s.awaitedPorts))
  | .send _ | .take _ | .announce _ | .object _ | .connect _ _ | .accept _ | .read _ _ | .finish _ | .fail _ =>
    .isTrue trivial

end Connection

end Runtime
end Ds4Spark
