import Ds4Spark.Lib.Pieces
import Ds4Spark.Runtime.TensorChannel

/-!
# Ds4Spark.Runtime.Reassembly

The tensors that a channel delivers, over every run of its calls and threads.

* `stripeRanges_tile`: the ranges of a split follow one another and cover the tensor.
* `Wired`: what the calls, the messages and the threads know of each other; `wired_step`.
* `Own`: a thread that has connected is connected to the listener of its stripe; `own_step`, for steps that
  give no port out again while a thread may still connect to it.
* `Written`: a thread has written the bytes of its call's tensor; `written_step`.
* `Served.completes`: a receive whose send has started can return.
* `channel_delivers`: the tensor of a receive that returns is the one sent under its number.
-/

namespace Ds4Spark
namespace Runtime

open Transfer (Phase countOf offsetOf stripeSize stripeLoop)

/-! ## The split -/

theorem rangeLoop_eq {base rem : Nat} (left : Nat) : ∀ index offset,
    rangeLoop base rem index offset left =
      (stripeLoop base rem index offset left).map (fun r => (r.beginAt, r.endAt)) := by
  induction left with
  | zero => exact fun _ _ => rfl
  | succ left ih =>
    intro index offset
    rw [rangeLoop, stripeLoop, List.map_cons, ih]

theorem stripeRanges_eq (byteCount stripes : Nat) : stripeRanges byteCount stripes =
    (List.range (countOf byteCount (max 1 stripes))).map (fun i =>
      (offsetOf byteCount (max 1 stripes) i, offsetOf byteCount (max 1 stripes) (i + 1))) := by
  have hcount : min (max 1 stripes) (max 1 byteCount) = countOf byteCount (max 1 stripes) := by
    rw [countOf, Nat.max_comm 1 byteCount]
  have hloop := @Transfer.stripeLoop_eq byteCount (max 1 stripes) (countOf byteCount (max 1 stripes)) 0
  rw [Transfer.offsetOf_zero] at hloop
  rw [stripeRanges, hcount, rangeLoop_eq, hloop, List.range_eq_range', List.map_map]
  rfl

/-- The receiver has a range for each of its ports. -/
theorem length_stripeRanges (envs : Envs) (byteCount : Nat) :
    (stripeRanges byteCount (stripeCount envs byteCount)).length = stripeCount envs byteCount := by
  rw [stripeRanges_eq, List.length_map, List.length_range, countOf]
  unfold stripeCount
  dsimp only
  omega

theorem stripeRanges_ne_nil (byteCount stripes : Nat) : stripeRanges byteCount stripes ≠ [] := by
  have hpos : 0 < countOf byteCount (max 1 stripes) := Transfer.countOf_pos (by omega)
  rw [stripeRanges_eq, Ne, List.map_eq_nil_iff, List.range_eq_nil]
  omega

/-- Different stripes do not meet. -/
theorem stripeRanges_disjoint {byteCount stripes i j : Nat} {r r' : Nat × Nat} (hij : i ≠ j)
    (hi : (stripeRanges byteCount stripes)[i]? = some r)
    (hj : (stripeRanges byteCount stripes)[j]? = some r') : r.2 ≤ r'.1 ∨ r'.2 ≤ r.1 := by
  rw [stripeRanges_eq, List.getElem?_map, Option.map_eq_some_iff] at hi hj
  obtain ⟨i', hi', rfl⟩ := hi
  obtain ⟨j', hj', rfl⟩ := hj
  obtain ⟨_, hi'⟩ := List.getElem?_eq_some_iff.mp hi'
  obtain ⟨_, hj'⟩ := List.getElem?_eq_some_iff.mp hj'
  rw [List.getElem_range] at hi' hj'
  subst hi' hj'
  rcases Nat.lt_or_gt_of_ne hij with hlt | hlt
  · exact .inl (Transfer.offsetOf_mono hlt)
  · exact .inr (Transfer.offsetOf_mono hlt)

theorem stripeRanges_within {byteCount stripes : Nat} {r : Nat × Nat}
    (h : r ∈ stripeRanges byteCount stripes) : r.1 ≤ r.2 ∧ r.2 ≤ byteCount := by
  rw [stripeRanges_eq, List.mem_map] at h
  obtain ⟨i, hi, rfl⟩ := h
  have hlt := List.mem_range.mp hi
  exact ⟨Transfer.offsetOf_mono (by omega), Transfer.offsetOf_le (by omega) (by omega)⟩

/-- Consecutive intervals between rising offsets. -/
theorem tiles_offsets {offset : Nat → Nat} (left : Nat) : ∀ index,
    (∀ i, index ≤ i → i < index + left → offset i < offset (i + 1)) →
    Tiles (fun r : Nat × Nat => (r.1 : Int)) (fun r => (r.2 : Int)) (offset index)
      ((List.range' index left).map (fun i => (offset i, offset (i + 1)))) (offset (index + left)) := by
  induction left with
  | zero => exact fun _ _ => rfl
  | succ left ih =>
    intro index hrise
    rw [List.range'_succ, List.map_cons]
    refine ⟨rfl, Int.ofNat_lt.mpr (hrise index (Nat.le_refl _) (by omega)), ?_⟩
    have hrest := ih (index + 1) (fun i hi hlt => hrise i (by omega) (by omega))
    rwa [Nat.add_right_comm] at hrest

/-- Every byte of the tensor is in exactly one range. -/
theorem stripeRanges_tile {byteCount stripes x : Nat} (hx : x < byteCount) :
    (stripeRanges byteCount stripes).countP (fun r => r.1 ≤ x ∧ x < r.2) = 1 := by
  have hcount : countOf byteCount (max 1 stripes) ≤ byteCount := by
    unfold countOf
    omega
  have hpos : 0 < countOf byteCount (max 1 stripes) := Transfer.countOf_pos (by omega)
  have htiles := @tiles_offsets (offsetOf byteCount (max 1 stripes))
    (countOf byteCount (max 1 stripes)) 0 (by
      intro i _ _
      have hsize : 1 ≤ byteCount / countOf byteCount (max 1 stripes) :=
        (Nat.one_le_div_iff hpos).mpr hcount
      rw [Transfer.offsetOf_succ]
      unfold stripeSize
      omega)
  rw [Nat.zero_add, Transfer.offsetOf_zero, Transfer.offsetOf_count (by omega)] at htiles
  have hone := htiles.count (x := x) (by omega) (by omega)
  rw [stripeRanges_eq, List.range_eq_range']
  refine Eq.trans (List.countP_congr (fun r _ => ?_)) hone
  rw [decide_eq_true_eq, holds_iff]
  omega

/-! ## The calls, the messages and the threads -/

theorem launch_of_eq {α : Type} {threads : StripeId → Option α} {k : Nat} {items : List α} {id : StripeId}
    (h : id.1 = k) : launch threads k items id = items[id.2]? := if_pos h

theorem launch_of_ne {α : Type} {threads : StripeId → Option α} {k : Nat} {items : List α} {id : StripeId}
    (h : id.1 ≠ k) : launch threads k items id = threads id := if_neg h

def RecvCall.shape (call : RecvCall) : Nat × List (Nat × Nat) × List Nat :=
  (call.buffer.length, call.ranges, call.ports)

def Listener.spot (l : Listener) : Nat × (Nat × Nat) := (l.port, (l.start, l.stop))

def Stripe.load (st : Stripe) : Nat × List UInt8 := (st.port, st.payload)

namespace Connection

def shapes (s : Connection) (k : Nat) : Option (Nat × List (Nat × Nat) × List Nat) :=
  (s.recvs k).map RecvCall.shape

def spots (s : Connection) (id : StripeId) : Option (Nat × (Nat × Nat)) := (s.listeners id).map Listener.spot

def loads (s : Connection) (id : StripeId) : Option (Nat × List UInt8) := (s.stripes id).map Stripe.load

/-- The call `k` of `send` has started its threads. -/
def Started (s : Connection) (k : Nat) (tensor : List UInt8) (ranges : List (Nat × Nat)) : Prop :=
  s.sends k = some ⟨tensor, .started ranges⟩

/-- What the two ranks know of each other. No thread's progress and no byte is in it. -/
structure Wired (s : Connection) : Prop where
  sends : ∀ k, s.sendSeq ≤ k → s.sends k = none
  recvs : ∀ k, s.recvSeq ≤ k → s.shapes k = none
  split : ∀ k n ranges ports, s.shapes k = some (n, ranges, ports) →
    ranges = stripeRanges n ports.length ∧ ports.length = ranges.length
  spots : ∀ id, s.spots id = (s.shapes id.1).bind fun shape => (shape.2.2.zip shape.2.1)[id.2]?
  readies : ∀ r, Control.ready r ∈ s.control → ∃ ranges, s.shapes r.seq = some (r.bytes, ranges, r.ports)
  started : ∀ k tensor ranges, s.Started k tensor ranges → ∃ ports, s.shapes k = some (tensor.length, ranges, ports)
  loads : ∀ id tensor ranges, s.Started id.1 tensor ranges →
    s.loads id = (s.spots id).map fun spot => (spot.1, slice tensor spot.2.1 spot.2.2)
  idle : ∀ id, (∀ tensor ranges, ¬ s.Started id.1 tensor ranges) → s.loads id = none

theorem start_wired : start.Wired where
  sends _ _ := rfl
  recvs _ _ := rfl
  split _ _ _ _ h := by cases h
  spots _ := rfl
  readies _ h := by cases h
  started _ _ _ h := by cases h
  loads _ _ _ h := by cases h
  idle _ _ := rfl

/-- A step of a thread, or of the messages, leaves the shapes, the spots, the sends and the loads. -/
theorem Wired.congr {s s' : Connection} (h : s.Wired) (hsendSeq : s'.sendSeq = s.sendSeq)
    (hrecvSeq : s'.recvSeq = s.recvSeq) (hsends : s'.sends = s.sends) (hshapes : s'.shapes = s.shapes)
    (hspots : s'.spots = s.spots) (hloads : s'.loads = s.loads)
    (hcontrol : ∀ r, Control.ready r ∈ s'.control → ∃ ranges, s.shapes r.seq = some (r.bytes, ranges, r.ports)) :
    s'.Wired where
  sends := by rw [hsendSeq, hsends]; exact h.sends
  recvs := by rw [hrecvSeq, hshapes]; exact h.recvs
  split := by rw [hshapes]; exact h.split
  spots := by rw [hshapes, hspots]; exact h.spots
  readies := by rw [hshapes]; exact hcontrol
  started := by unfold Started; rw [hshapes, hsends]; exact h.started
  loads := by unfold Started; rw [hloads, hspots, hsends]; exact h.loads
  idle := by unfold Started; rw [hloads, hsends]; exact h.idle

theorem spots_setPhase {s : Connection} {id : StripeId} {l : Listener} (hl : s.listeners id = some l)
    (phase : Phase) : (s.setPhase id l phase).spots = s.spots := by
  funext other
  by_cases hother : other = id
  · subst hother
    simp only [Connection.spots, setPhase, Function.update_self, hl]
    rfl
  · simp only [Connection.spots, setPhase, Function.update_of_ne hother]

theorem Wired.setPhase {s : Connection} (h : s.Wired) {id : StripeId} {l : Listener}
    (hl : s.listeners id = some l) (phase : Phase) : (s.setPhase id l phase).Wired :=
  h.congr rfl rfl rfl rfl (spots_setPhase hl phase) rfl h.readies

theorem shapes_update {s : Connection} {k : Nat} {call call' : RecvCall} (hcall : s.recvs k = some call)
    (hshape : call'.shape = call.shape) :
    (fun i => (Function.update s.recvs k (some call') i).map RecvCall.shape) = s.shapes := by
  funext i
  by_cases hi : i = k
  · subst hi
    simp only [shapes, Function.update_self, hcall, Option.map_some, hshape]
  · simp only [shapes, Function.update_of_ne hi]

/-- A call of `send` that has not started is put in another phase in which it has not. -/
theorem Wired.unstarted {s : Connection} (h : s.Wired) {k n : Nat} {control : List Control} {call : SendCall}
    (hold : ∀ tensor ranges, ¬ s.Started k tensor ranges)
    (hnew : ∀ ranges, call.phase ≠ .started ranges) (hn : s.sendSeq ≤ n) (hk : k < n)
    (hcontrol : ∀ r, Control.ready r ∈ control → Control.ready r ∈ s.control) :
    ({ s with
      sendSeq := n
      control := control
      sends := Function.update s.sends k (some call) } : Connection).Wired := by
  have hstarted : ∀ i tensor ranges, Function.update s.sends k (some call) i =
      some ⟨tensor, .started ranges⟩ ↔ s.Started i tensor ranges := by
    intro i tensor ranges
    by_cases hi : i = k
    · subst hi
      rw [Function.update_self]
      refine iff_of_false ?_ (hold tensor ranges)
      rintro hcall
      cases hcall
      exact hnew ranges rfl
    · rw [Function.update_of_ne hi]
      rfl
  refine ⟨?_, h.recvs, h.split, h.spots, fun r hr => h.readies r (hcontrol r hr), ?_, ?_, ?_⟩
  · intro i hi
    dsimp only at hi ⊢
    rw [Function.update_of_ne (by omega)]
    exact h.sends i (by omega)
  · intro i tensor ranges hi
    exact h.started i tensor ranges ((hstarted i tensor ranges).mp hi)
  · intro id tensor ranges hi
    exact h.loads id tensor ranges ((hstarted id.1 tensor ranges).mp hi)
  · intro id hnone
    exact h.idle id fun tensor ranges hi => hnone tensor ranges ((hstarted id.1 tensor ranges).mpr hi)

theorem Wired.send {s s' : Connection} (h : s.Wired) {dst : Nat} {tensor : List UInt8}
    (hstep : step dst (.send tensor) s = some s') : s'.Wired := by
  obtain rfl := Option.some.inj hstep
  refine h.unstarted ?_ (fun _ hphase => by cases hphase) (Nat.le_succ _) (Nat.lt_succ_self _) (fun _ hr => hr)
  intro tensor' ranges hk
  rw [Started, h.sends _ (Nat.le_refl _)] at hk
  cases hk

/-- The check passes for the ready message of the sender's own number and size. -/
theorem checkReady_ok {ready : Control} {byteCount seq dst : Nat} {r : Ready}
    (h : checkReady ready byteCount seq dst = .ok r) :
    ready = .ready r ∧ r.seq = seq ∧ r.bytes = byteCount ∧ r.ports ≠ [] := by
  unfold checkReady at h
  split at h
  · cases h
  · split at h
    · cases h
    next hseq =>
      split at h
      · cases h
      next hbytes =>
        split at h
        · cases h
        next hports =>
          cases h
          exact ⟨rfl, not_ne_iff.mp hseq, not_ne_iff.mp hbytes, hports⟩

theorem take_some {s s' : Connection} {dst seq : Nat} (hstep : step dst (.take seq) s = some s') :
    ∃ tensor ready rest, s.sends seq = some ⟨tensor, .waiting⟩ ∧ s.control = ready :: rest ∧
      ((∃ e, checkReady ready tensor.length seq dst = .error e ∧ s' = { s with
          control := rest
          sends := Function.update s.sends seq (some ⟨tensor, .raised e⟩) }) ∨
      ∃ r, ready = .ready r ∧ r.seq = seq ∧ r.bytes = tensor.length ∧ s' = { s with
          control := rest
          sends := Function.update s.sends seq
            (some ⟨tensor, .started (stripeRanges tensor.length r.ports.length)⟩)
          stripes := launch s.stripes seq ((r.ports.zip (stripeRanges tensor.length r.ports.length)).map
            fun p => ⟨p.1, slice tensor p.2.1 p.2.2, false⟩) }) := by
  rw [step, take] at hstep
  split at hstep
  next tensor ready rest hsend hcontrol =>
    refine ⟨tensor, ready, rest, hsend, hcontrol, ?_⟩
    split at hstep
    next e hcheck =>
      cases hstep
      exact .inl ⟨e, hcheck, rfl⟩
    next r hcheck =>
      obtain ⟨hready, hseq, hbytes, _⟩ := checkReady_ok hcheck
      cases hstep
      exact .inr ⟨r, hready, hseq, hbytes, rfl⟩
  next => cases hstep

/-- The threads of a send take the ports of its message, which are those of the receive of its number. -/
theorem Wired.launch {s : Connection} (h : s.Wired) {k : Nat} {tensor : List UInt8} {r : Ready}
    {rest : List Control} (hsend : s.sends k = some ⟨tensor, .waiting⟩)
    (hcontrol : s.control = .ready r :: rest) (hseq : r.seq = k) (hbytes : r.bytes = tensor.length) :
    ({ s with
      control := rest
      sends := Function.update s.sends k (some ⟨tensor, .started (stripeRanges tensor.length r.ports.length)⟩)
      stripes := Runtime.launch s.stripes k ((r.ports.zip (stripeRanges tensor.length r.ports.length)).map
        fun p => ⟨p.1, slice tensor p.2.1 p.2.2, false⟩) } : Connection).Wired := by
  obtain ⟨ranges, hshape⟩ := h.readies r (by rw [hcontrol]; exact List.mem_cons_self)
  rw [hseq, hbytes] at hshape
  obtain ⟨hranges, _⟩ := h.split _ _ _ _ hshape
  rw [← hranges]
  have hother : ∀ i, i ≠ k → Function.update s.sends k (some ⟨tensor, .started ranges⟩) i = s.sends i :=
    fun i hi => Function.update_of_ne hi _ _
  refine ⟨?_, h.recvs, h.split, h.spots, ?_, ?_, ?_, ?_⟩
  · intro i hi
    have hne : i ≠ k := by
      rintro rfl
      rw [h.sends i hi] at hsend
      cases hsend
    dsimp only
    rw [hother i hne]
    exact h.sends i hi
  · intro r' hr'
    exact h.readies r' (by rw [hcontrol]; exact List.mem_cons_of_mem _ hr')
  · intro i tensor' ranges' hi
    dsimp only [Started] at hi
    by_cases hik : i = k
    · rw [hik, Function.update_self] at hi
      cases hi
      exact ⟨r.ports, by rw [hik]; exact hshape⟩
    · rw [hother i hik] at hi
      exact h.started i tensor' ranges' hi
  · intro id tensor' ranges' hi
    dsimp only [Started, Connection.loads] at hi ⊢
    by_cases hid : id.1 = k
    · rw [hid, Function.update_self] at hi
      cases hi
      rw [launch_of_eq hid, List.getElem?_map, Option.map_map]
      have hspot : s.spots id = (r.ports.zip ranges)[id.2]? := by
        rw [h.spots id, hid, hshape]
        rfl
      exact (congrArg _ hspot).symm
    · rw [hother id.1 hid] at hi
      rw [launch_of_ne hid]
      exact h.loads id tensor' ranges' hi
  · intro id hnone
    dsimp only [Started, Connection.loads] at hnone ⊢
    have hid : id.1 ≠ k := fun hid => hnone tensor ranges (by rw [hid, Function.update_self])
    rw [hother id.1 hid] at hnone
    rw [launch_of_ne hid]
    exact h.idle id hnone

theorem Wired.take {s s' : Connection} (h : s.Wired) {dst seq : Nat}
    (hstep : step dst (.take seq) s = some s') : s'.Wired := by
  obtain ⟨tensor, ready, rest, hsend, hcontrol, hcases⟩ := take_some hstep
  rcases hcases with ⟨e, _, rfl⟩ | ⟨r, rfl, hseq, hbytes, rfl⟩
  · refine h.unstarted (fun tensor' ranges hk => ?_) (fun _ hphase => by cases hphase) (Nat.le_refl _) ?_ ?_
    · rw [Started, hsend] at hk
      cases hk
    · by_contra hge
      rw [h.sends seq (by omega)] at hsend
      cases hsend
    · intro r hr
      rw [hcontrol]
      exact List.mem_cons_of_mem _ hr
  · exact h.launch hsend hcontrol hseq hbytes

theorem recv_some {s s' : Connection} {dst : Nat} {envs : Envs} {buffer : List UInt8} {ports : List Nat}
    (hstep : step dst (.recv envs buffer ports) s = some s') :
    ports.length = stripeCount envs buffer.length ∧ ports.Nodup ∧ (∀ port ∈ ports, port ∉ s.listeningPorts) ∧
      s' = { s with
        recvSeq := s.recvSeq + 1
        recvs := Function.update s.recvs s.recvSeq
          (some ⟨buffer, stripeRanges buffer.length ports.length, ports, false⟩)
        listeners := Runtime.launch s.listeners s.recvSeq
          ((ports.zip (stripeRanges buffer.length ports.length)).map
            fun p => ⟨p.1, p.2.1, p.2.2, .listening⟩) } := by
  rw [step] at hstep
  split at hstep
  next hcond =>
    cases hstep
    exact ⟨hcond.1, hcond.2.1, hcond.2.2, rfl⟩
  next => cases hstep

/-- What a receive adds to a connection: a shape under the next number, and its listeners. -/
structure Opened (s : Connection) (n : Nat) (ranges : List (Nat × Nat)) (ports : List Nat) (s' : Connection) :
    Prop where
  shape : s'.shapes s.recvSeq = some (n, ranges, ports)
  shapes : ∀ k ≠ s.recvSeq, s'.shapes k = s.shapes k
  spot : ∀ id, id.1 = s.recvSeq → s'.spots id = (ports.zip ranges)[id.2]?
  spots : ∀ id, id.1 ≠ s.recvSeq → s'.spots id = s.spots id

theorem opened_of_recv {s s' : Connection} {dst : Nat} {envs : Envs} {buffer : List UInt8} {ports : List Nat}
    (hstep : step dst (.recv envs buffer ports) s = some s') :
    Opened s buffer.length (stripeRanges buffer.length ports.length) ports s' := by
  obtain ⟨-, -, -, rfl⟩ := recv_some hstep
  constructor
  · dsimp only [Connection.shapes]
    rw [Function.update_self]
    rfl
  · intro k hk
    dsimp only [Connection.shapes]
    rw [Function.update_of_ne hk]
  · intro id hid
    dsimp only [Connection.spots]
    rw [launch_of_eq hid, List.getElem?_map, Option.map_map]
    exact Option.map_id'
  · intro id hid
    dsimp only [Connection.spots]
    rw [launch_of_ne hid]

/-- A shape that is there keeps its number. -/
theorem Wired.before_recvSeq {s : Connection} (h : s.Wired) {k : Nat} {shape : Nat × List (Nat × Nat) × List Nat}
    (hk : s.shapes k = some shape) : k ≠ s.recvSeq := by
  rintro rfl
  rw [h.recvs _ (Nat.le_refl _)] at hk
  cases hk

theorem Wired.recv {s s' : Connection} (h : s.Wired) {dst : Nat} {envs : Envs} {buffer : List UInt8}
    {ports : List Nat} (hstep : step dst (.recv envs buffer ports) s = some s') : s'.Wired := by
  have hopened := opened_of_recv hstep
  obtain ⟨hlength, -, -, rfl⟩ := recv_some hstep
  refine ⟨h.sends, ?_, ?_, ?_, ?_, ?_, ?_, h.idle⟩
  · intro k hk
    dsimp only at hk
    rw [hopened.shapes k (by omega)]
    exact h.recvs k (by omega)
  · intro k n ranges ports' hk
    by_cases hnew : k = s.recvSeq
    · rw [hnew, hopened.shape] at hk
      cases hk
      exact ⟨rfl, by rw [hlength, length_stripeRanges]⟩
    · rw [hopened.shapes k hnew] at hk
      exact h.split k n ranges ports' hk
  · intro id
    by_cases hnew : id.1 = s.recvSeq
    · rw [hopened.spot id hnew, hnew, hopened.shape]
      rfl
    · rw [hopened.spots id hnew, hopened.shapes _ hnew]
      exact h.spots id
  · intro r hr
    obtain ⟨ranges, hk⟩ := h.readies r hr
    exact ⟨ranges, by rw [hopened.shapes _ (h.before_recvSeq hk)]; exact hk⟩
  · intro k tensor ranges hk
    obtain ⟨ports', hk'⟩ := h.started k tensor ranges hk
    exact ⟨ports', by rw [hopened.shapes _ (h.before_recvSeq hk')]; exact hk'⟩
  · intro id tensor ranges hk
    obtain ⟨ports', hk'⟩ := h.started id.1 tensor ranges hk
    rw [hopened.spots id (h.before_recvSeq hk')]
    exact h.loads id tensor ranges hk

theorem announce_some {s s' : Connection} {dst k : Nat} (hstep : step dst (.announce k) s = some s') :
    ∃ call, s.recvs k = some call ∧ s' = { s with
      control := s.control ++ [.ready ⟨k, call.buffer.length, call.ports⟩]
      recvs := Function.update s.recvs k (some { call with announced := true }) } := by
  rw [step] at hstep
  split at hstep
  next call hcall =>
    split at hstep
    · cases hstep
    · cases hstep
      exact ⟨call, hcall, rfl⟩
  next => cases hstep

theorem Wired.announce {s s' : Connection} (h : s.Wired) {dst k : Nat}
    (hstep : step dst (.announce k) s = some s') : s'.Wired := by
  obtain ⟨call, hcall, rfl⟩ := announce_some hstep
  refine h.congr rfl rfl rfl (shapes_update hcall rfl) rfl rfl ?_
  intro r hr
  rcases List.mem_append.mp hr with hr | hr
  · exact h.readies r hr
  · cases List.mem_singleton.mp hr
    exact ⟨call.ranges, by rw [shapes, hcall]; rfl⟩

/-- The sender's thread `f` connects to the listener `t` at its port. -/
theorem connect_some {s s' : Connection} {dst : Nat} {f t : StripeId} (hstep : step dst (.connect f t) s = some s') :
    ∃ st l, s.stripes f = some st ∧ s.listeners t = some l ∧ st.connected = false ∧ l.port = st.port ∧
      l.phase = .listening ∧ s' = { s with
        stripes := Function.update s.stripes f (some { st with connected := true })
        arrived := Function.update s.arrived t (some st.payload) } := by
  rw [step, connect] at hstep
  split at hstep
  next st l hst hl =>
    split at hstep
    next hcond =>
      cases hstep
      exact ⟨st, l, hst, hl, hcond.1, hcond.2.1, hcond.2.2.1, rfl⟩
    next => cases hstep
  next => cases hstep

theorem Wired.connect {s s' : Connection} (h : s.Wired) {dst : Nat} {f t : StripeId}
    (hstep : step dst (.connect f t) s = some s') : s'.Wired := by
  obtain ⟨st, l, hst, _, _, _, _, rfl⟩ := connect_some hstep
  refine h.congr rfl rfl rfl rfl rfl (funext fun id => ?_) h.readies
  dsimp only [Connection.loads]
  by_cases hid : id = f
  · rw [hid, Function.update_self, hst]
    rfl
  · rw [Function.update_of_ne hid]

/-- A listener is in its part of the buffer of its call. -/
theorem Wired.part {s : Connection} (h : s.Wired) {id : StripeId} {l : Listener} {call : RecvCall}
    (hl : s.listeners id = some l) (hcall : s.recvs id.1 = some call) :
    call.ports[id.2]? = some l.port ∧ call.ranges[id.2]? = some (l.start, l.stop) ∧ l.start ≤ l.stop ∧
      l.stop ≤ call.buffer.length := by
  have hshape : s.shapes id.1 = some (call.buffer.length, call.ranges, call.ports) := by rw [shapes, hcall]; rfl
  have hspot := h.spots id
  rw [Connection.spots, hl, hshape] at hspot
  obtain ⟨hport, hrange⟩ := List.getElem?_zip_eq_some.mp hspot.symm
  have hmem := List.mem_of_getElem? hrange
  rw [(h.split _ _ _ _ hshape).1] at hmem
  exact ⟨hport, hrange, stripeRanges_within hmem⟩

/-- The call of a listener is one of the receives. -/
theorem Wired.listener_call {s : Connection} (h : s.Wired) {id : StripeId} {l : Listener}
    (hl : s.listeners id = some l) : ∃ call, s.recvs id.1 = some call := by
  cases hcall : s.recvs id.1 with
  | some call => exact ⟨call, rfl⟩
  | none =>
    have hspot := h.spots id
    rw [Connection.spots, hl, shapes, hcall] at hspot
    cases hspot

theorem read_some {s s' : Connection} {id : StripeId} {length : Nat} (hstep : s.read id length = some s') :
    ∃ l payload received call, s.listeners id = some l ∧ s.arrived id = some payload ∧
      l.phase = .reading received ∧ s.recvs id.1 = some call ∧ received + length ≤ l.stop - l.start ∧
      received + length ≤ payload.length ∧ s' = { s.setPhase id l (.reading (received + length)) with
        recvs := Function.update s.recvs id.1 (some { call with
          buffer := overwrite call.buffer ((payload.drop received).take length) (l.start + received) }) } := by
  rw [read] at hstep
  split at hstep
  next l payload hl hpayload =>
    split at hstep
    next received call hphase hcall =>
      split at hstep
      next hcond =>
        cases hstep
        exact ⟨l, payload, received, call, hl, hpayload, hphase, hcall, hcond.2.1, hcond.2.2, rfl⟩
      next => cases hstep
    next => cases hstep
  next => cases hstep

/-- A read stays in the buffer of its call. -/
theorem Wired.fits {s : Connection} (h : s.Wired) {id : StripeId} {received length : Nat} {l : Listener}
    {call : RecvCall} {payload : List UInt8} (hl : s.listeners id = some l) (hcall : s.recvs id.1 = some call)
    (hpart : received + length ≤ l.stop - l.start) (hpayload : received + length ≤ payload.length) :
    ((payload.drop received).take length).length = length ∧
      l.start + received + ((payload.drop received).take length).length ≤ call.buffer.length := by
  obtain ⟨_, _, hle, hbuffer⟩ := h.part hl hcall
  have hlength : ((payload.drop received).take length).length = length := by
    rw [List.length_take, List.length_drop]
    omega
  rw [hlength]
  omega

theorem Wired.read {s s' : Connection} (h : s.Wired) {id : StripeId} {length : Nat}
    (hstep : s.read id length = some s') : s'.Wired := by
  obtain ⟨l, payload, received, call, hl, _, _, hcall, hpart, hpayload, rfl⟩ := read_some hstep
  refine (h.setPhase hl (.reading (received + length))).congr rfl rfl rfl ?_ rfl rfl h.readies
  refine shapes_update hcall ?_
  rw [RecvCall.shape, RecvCall.shape, length_overwrite (h.fits hl hcall hpart hpayload).2]

/-- Accepting, ending and failing move a listener on and do nothing else. -/
theorem thread_some {s s' : Connection} {dst : Nat} {a : Action} (hstep : step dst a s = some s')
    (ha : ∃ id, a = .accept id ∨ a = .finish id ∨ a = .fail id) :
    ∃ id l phase, s.listeners id = some l ∧ s' = s.setPhase id l phase ∧
      (phase = .failed ∨ (phase = .reading 0 ∧ ∃ payload, s.arrived id = some payload) ∨
        (phase = .done ∧ l.phase = .reading (l.stop - l.start))) := by
  obtain ⟨id, rfl | rfl | rfl⟩ := ha
  · rw [step] at hstep
    split at hstep
    next l payload hl hpayload =>
      split at hstep
      · cases hstep
        exact ⟨id, l, _, hl, rfl, .inr (.inl ⟨rfl, payload, hpayload⟩)⟩
      · cases hstep
    next => cases hstep
  · rw [step] at hstep
    split at hstep
    next l hl =>
      split at hstep
      next hphase =>
        cases hstep
        exact ⟨id, l, _, hl, rfl, .inr (.inr ⟨rfl, hphase⟩)⟩
      next => cases hstep
    next => cases hstep
  · rw [step] at hstep
    split at hstep
    next l hl =>
      split at hstep
      · cases hstep
        exact ⟨id, l, _, hl, rfl, .inl rfl⟩
      · cases hstep
    next => cases hstep

theorem wired_step {s s' : Connection} {dst : Nat} {a : Action} (hstep : step dst a s = some s')
    (h : s.Wired) : s'.Wired := by
  have hthread : (∃ id, a = .accept id ∨ a = .finish id ∨ a = .fail id) → s'.Wired := by
    intro ha
    obtain ⟨id, l, phase, hl, rfl, _⟩ := thread_some hstep ha
    exact h.setPhase hl phase
  cases a with
  | send tensor => exact h.send hstep
  | take seq => exact h.take hstep
  | recv envs buffer ports => exact h.recv hstep
  | announce seq => exact h.announce hstep
  | object typeName =>
    cases hstep
    refine h.congr rfl rfl rfl rfl rfl rfl (fun r hr => ?_)
    rcases List.mem_append.mp hr with hr | hr
    · exact h.readies r hr
    · cases List.mem_singleton.mp hr
  | connect f t => exact h.connect hstep
  | accept id => exact hthread ⟨id, .inl rfl⟩
  | read id length => exact h.read hstep
  | finish id => exact hthread ⟨id, .inr (.inl rfl)⟩
  | fail id => exact hthread ⟨id, .inr (.inr rfl)⟩

/-! ## Which thread is connected to which listener -/

theorem mem_ids {s : Connection} (h : s.Wired) {id : StripeId} {l : Listener} (hl : s.listeners id = some l) :
    id ∈ s.ids := by
  obtain ⟨call, hcall⟩ := h.listener_call hl
  have hlt : id.1 < s.recvSeq := by
    by_contra hge
    have hnone := h.recvs id.1 (by omega)
    rw [shapes, hcall] at hnone
    cases hnone
  have hindex := (List.getElem?_eq_some_iff.mp (h.part hl hcall).1).1
  refine List.mem_flatMap.mpr ⟨id.1, List.mem_range.mpr hlt, List.mem_map.mpr ⟨id.2, ?_, rfl⟩⟩
  rw [hcall]
  exact List.mem_range.mpr hindex

theorem mem_listeningPorts {s : Connection} (h : s.Wired) {id : StripeId} {l : Listener}
    (hl : s.listeners id = some l) (hphase : l.phase = .listening) : l.port ∈ s.listeningPorts := by
  refine List.mem_filterMap.mpr ⟨id, mem_ids h hl, ?_⟩
  rw [hl, Option.filter_some, if_pos (by simpa using hphase)]
  rfl

theorem mem_awaitedPorts {s : Connection} (h : s.Wired) {id : StripeId} {l : Listener}
    (hl : s.listeners id = some l) (hawaited : s.awaited id = true) : l.port ∈ s.awaitedPorts := by
  refine List.mem_filterMap.mpr ⟨id, List.mem_filter.mpr ⟨mem_ids h hl, hawaited⟩, ?_⟩
  rw [hl]
  rfl

/-- A thread of the sender is one of a call that has started. -/
theorem Wired.stripe_started {s : Connection} (h : s.Wired) {id : StripeId} {st : Stripe}
    (hst : s.stripes id = some st) : ∃ tensor ranges, s.Started id.1 tensor ranges := by
  by_contra hnone
  push Not at hnone
  have hidle := h.idle id hnone
  rw [Connection.loads, hst] at hidle
  cases hidle

/-- What arrives at a listener is from the thread of its stripe, and the port of a listener that may still be
connected to is no one else's. -/
structure Own (s : Connection) : Prop where
  arrived : ∀ id, s.arrived id = ((s.stripes id).filter Stripe.connected).map Stripe.payload
  sole : ∀ id other l l', s.listeners id = some l → s.listeners other = some l' → l.port = l'.port → id ≠ other →
    l'.phase = .listening → s.awaited id = false

theorem start_own : start.Own where
  arrived _ := rfl
  sole _ _ _ _ h := by cases h

/-- No listener is new or listens again, and no thread is awaited that was not. -/
theorem Own.congr {s s' : Connection} (h : s.Own)
    (harrived : ∀ id, s'.arrived id = ((s'.stripes id).filter Stripe.connected).map Stripe.payload)
    (hlisteners : ∀ id l', s'.listeners id = some l' → ∃ l, s.listeners id = some l ∧ l.port = l'.port ∧
      (l'.phase = .listening → l.phase = .listening))
    (hawaited : ∀ id, s.awaited id = false → s'.awaited id = false) : s'.Own where
  arrived := harrived
  sole := by
    intro id other l l' hl hl' hport hne hphase
    obtain ⟨m, hm, hmport, -⟩ := hlisteners id l hl
    obtain ⟨m', hm', hmport', hmphase⟩ := hlisteners other l' hl'
    exact hawaited id (h.sole id other m m' hm hm' (by rw [hmport, hmport', hport]) hne (hmphase hphase))

theorem Own.setPhase {s s' : Connection} (h : s.Own) {id : StripeId} {l : Listener} {phase : Phase}
    (hl : s.listeners id = some l) (hphase : phase ≠ .listening)
    (hlisteners : s'.listeners = Function.update s.listeners id (some { l with phase := phase }))
    (hstripes : s'.stripes = s.stripes) (harrived : s'.arrived = s.arrived) (hsends : s'.sends = s.sends) :
    s'.Own := by
  refine h.congr (by rw [hstripes, harrived]; exact h.arrived) (fun other l' hl' => ?_) (fun other hother => ?_)
  · rw [hlisteners] at hl'
    by_cases heq : other = id
    · rw [heq, Function.update_self] at hl'
      cases hl'
      exact ⟨l, by rw [heq]; exact hl, rfl, fun hlistening => absurd hlistening hphase⟩
    · rw [Function.update_of_ne heq] at hl'
      exact ⟨l', hl', rfl, fun hlistening => hlistening⟩
  · unfold awaited at hother ⊢
    rwa [hsends, hstripes]

theorem Own.send {s s' : Connection} (hw : s.Wired) (h : s.Own) {dst : Nat} {tensor : List UInt8}
    (hstep : step dst (.send tensor) s = some s') : s'.Own := by
  obtain rfl := Option.some.inj hstep
  refine h.congr h.arrived (fun _ l hl => ⟨l, hl, rfl, fun hphase => hphase⟩) (fun id hid => ?_)
  unfold awaited at hid ⊢
  dsimp only
  by_cases hnew : id.1 = s.sendSeq
  · rw [hnew, hw.sends _ (Nat.le_refl _)] at hid
    rw [hnew, Function.update_self]
    exact hid
  · rwa [Function.update_of_ne hnew]

theorem Own.take {s s' : Connection} (hw : s.Wired) (h : s.Own) {dst seq : Nat}
    (hstep : step dst (.take seq) s = some s') : s'.Own := by
  obtain ⟨tensor, ready, rest, hsend, _, hcases⟩ := take_some hstep
  -- the thread has not been started, so it is awaited
  have hidle : ∀ id, id.1 = seq → s.stripes id = none := by
    intro id hid
    have hnone := hw.idle id fun tensor' ranges hstarted => by
      rw [Started, hid, hsend] at hstarted
      cases hstarted
    rwa [loads, Option.map_eq_none_iff] at hnone
  have hwaits : ∀ id, s.awaited id = false → id.1 ≠ seq := by
    intro id hid heq
    unfold awaited at hid
    rw [heq, hsend, hidle id heq] at hid
    cases hid
  rcases hcases with ⟨e, _, rfl⟩ | ⟨r, _, _, _, rfl⟩
  · refine h.congr h.arrived (fun _ l hl => ⟨l, hl, rfl, fun hphase => hphase⟩) (fun id hid => ?_)
    have hne := hwaits id hid
    unfold awaited at hid ⊢
    dsimp only
    rwa [Function.update_of_ne hne]
  · refine h.congr (fun id => ?_) (fun _ l hl => ⟨l, hl, rfl, fun hphase => hphase⟩) (fun id hid => ?_)
    · dsimp only
      by_cases hid : id.1 = seq
      · rw [h.arrived id, hidle id hid, launch_of_eq hid, List.getElem?_map]
        cases (r.ports.zip (stripeRanges tensor.length r.ports.length))[id.2]? <;> rfl
      · rw [launch_of_ne hid]
        exact h.arrived id
    · have hne := hwaits id hid
      unfold awaited at hid ⊢
      dsimp only
      rwa [Function.update_of_ne hne, launch_of_ne hne]

/-- The new listeners have ports that are not listened on, and to which no thread may still connect. -/
theorem Own.recv {s s' : Connection} (hw : s.Wired) (h : s.Own) {dst : Nat} {envs : Envs} {buffer : List UInt8}
    {ports : List Nat} (hfresh : s.Fresh (.recv envs buffer ports))
    (hstep : step dst (.recv envs buffer ports) s = some s') : s'.Own := by
  have hw' := wired_step hstep hw
  obtain ⟨-, hnodup, hfree, rfl⟩ := recv_some hstep
  refine ⟨h.arrived, ?_⟩
  intro id other l l' hl hl' hport hne hphase
  have hnew : ∀ {i : StripeId} {m : Listener}, i.1 = s.recvSeq →
      Runtime.launch s.listeners s.recvSeq ((ports.zip (stripeRanges buffer.length ports.length)).map
        fun p => ⟨p.1, p.2.1, p.2.2, .listening⟩) i = some m → ports[i.2]? = some m.port := by
    intro i m hi hm
    exact (hw'.part hm (by dsimp only; rw [hi, Function.update_self])).1
  have hold : ∀ {i : StripeId} {m : Listener}, i.1 ≠ s.recvSeq →
      Runtime.launch s.listeners s.recvSeq ((ports.zip (stripeRanges buffer.length ports.length)).map
        fun p => ⟨p.1, p.2.1, p.2.2, .listening⟩) i = some m → s.listeners i = some m := by
    intro i m hi hm
    rwa [launch_of_ne hi] at hm
  by_cases hid : id.1 = s.recvSeq
  · have hp := hnew hid hl
    by_cases hother : other.1 = s.recvSeq
    · -- two listeners of the call have two ports
      have hp' := hnew hother hl'
      rw [← hport] at hp'
      have hindex := (List.getElem?_inj (List.getElem?_eq_some_iff.mp hp).1 hnodup).mp (hp.trans hp'.symm)
      exact absurd (Prod.ext (hid.trans hother.symm) hindex) hne
    · have hlistening := mem_listeningPorts hw (hold hother hl') hphase
      rw [← hport] at hlistening
      exact absurd hlistening (hfree l.port (List.mem_of_getElem? hp))
  · have hl := hold hid hl
    by_cases hother : other.1 = s.recvSeq
    · have hp' := hnew hother hl'
      rw [← hport] at hp'
      have hnot := hfresh l.port (List.mem_of_getElem? hp')
      by_contra hawaited
      exact hnot (mem_awaitedPorts hw hl (Bool.eq_true_of_not_eq_false hawaited))
    · exact h.sole id other l l' hl (hold hother hl') hport hne hphase

/-- A thread connects to the listener of its own stripe. -/
theorem Own.same {s s' : Connection} (hw : s.Wired) (h : s.Own) {dst : Nat} {f t : StripeId}
    (hstep : step dst (.connect f t) s = some s') : f = t := by
  obtain ⟨st, l, hst, hl, hopen, hport, hphase, -⟩ := connect_some hstep
  by_contra hne
  obtain ⟨tensor, ranges, hstarted⟩ := hw.stripe_started hst
  have hload := hw.loads f tensor ranges hstarted
  rw [loads, hst] at hload
  obtain ⟨spot, hspot, hsame⟩ := Option.map_eq_some_iff.mp hload.symm
  obtain ⟨m, hm, rfl⟩ := Option.map_eq_some_iff.mp hspot
  have hmport : m.port = st.port := congrArg Prod.fst hsame
  have hgone := h.sole f t m l hm hl (hmport.trans hport.symm) hne hphase
  unfold awaited at hgone
  rw [hstarted, hst, Option.any_some, hopen] at hgone
  cases hgone

theorem Own.connect {s s' : Connection} (hw : s.Wired) (h : s.Own) {dst : Nat} {f t : StripeId}
    (hstep : step dst (.connect f t) s = some s') : s'.Own := by
  obtain rfl := h.same hw hstep
  obtain ⟨st, l, hst, hl, hopen, hport, hphase, rfl⟩ := connect_some hstep
  refine h.congr (fun id => ?_) (fun _ l hl => ⟨l, hl, rfl, fun hphase => hphase⟩) (fun id hid => ?_)
  · dsimp only
    by_cases hid : id = f
    · rw [hid, Function.update_self, Function.update_self]
      rfl
    · rw [Function.update_of_ne hid, Function.update_of_ne hid]
      exact h.arrived id
  · unfold awaited at hid ⊢
    dsimp only
    by_cases heq : id = f
    · rw [heq, Function.update_self]
      split <;> rfl
    · rwa [Function.update_of_ne heq]

theorem own_step {s s' : Connection} {dst : Nat} {a : Action} (hfresh : s.Fresh a) (hstep : step dst a s = some s')
    (hw : s.Wired) (h : s.Own) : s'.Own := by
  have hthread : (∃ id, a = .accept id ∨ a = .finish id ∨ a = .fail id) → s'.Own := by
    intro ha
    obtain ⟨id, l, phase, hl, rfl, hphase⟩ := thread_some hstep ha
    refine h.setPhase hl ?_ rfl rfl rfl rfl
    rintro rfl
    rcases hphase with hphase | ⟨hphase, _⟩ | ⟨hphase, _⟩ <;> cases hphase
  cases a with
  | send tensor => exact h.send hw hstep
  | take seq => exact h.take hw hstep
  | recv envs buffer ports => exact h.recv hw hfresh hstep
  | announce seq =>
    obtain ⟨call, _, rfl⟩ := announce_some hstep
    exact h.congr h.arrived (fun _ l hl => ⟨l, hl, rfl, fun hphase => hphase⟩) (fun _ hid => hid)
  | object typeName =>
    cases hstep
    exact h.congr h.arrived (fun _ l hl => ⟨l, hl, rfl, fun hphase => hphase⟩) (fun _ hid => hid)
  | connect f t => exact h.connect hw hstep
  | accept id => exact hthread ⟨id, .inl rfl⟩
  | read id length =>
    obtain ⟨l, payload, received, call, hl, _, _, _, _, _, rfl⟩ := read_some hstep
    exact h.setPhase hl (fun hphase => by cases hphase) rfl rfl rfl rfl
  | finish id => exact hthread ⟨id, .inr (.inl rfl)⟩
  | fail id => exact hthread ⟨id, .inr (.inr rfl)⟩

/-- What arrives at a listener is its part of the tensor that was sent under the number of its call. -/
theorem Own.payload {s : Connection} (hw : s.Wired) (h : s.Own) {id : StripeId} {l : Listener}
    (hl : s.listeners id = some l) {payload : List UInt8} (hpayload : s.arrived id = some payload) :
    ∃ tensor ranges, s.Started id.1 tensor ranges ∧ payload = slice tensor l.start l.stop := by
  rw [h.arrived] at hpayload
  obtain ⟨st, hst, rfl⟩ := Option.map_eq_some_iff.mp hpayload
  obtain ⟨hst, -⟩ := Option.filter_eq_some_iff.mp hst
  obtain ⟨tensor, ranges, hstarted⟩ := hw.stripe_started hst
  have hload := hw.loads id tensor ranges hstarted
  rw [loads, hst, Connection.spots, hl] at hload
  exact ⟨tensor, ranges, hstarted, congrArg Prod.snd (Option.some.inj hload)⟩

/-! ## The bytes -/

/-- How much of its part a thread has written. -/
def progress (l : Listener) : Option Nat :=
  match l.phase with
  | .reading received => some received
  | .done => some (l.stop - l.start)
  | _ => none

/-- A thread is connected, and the first `n` bytes of the part are those of the tensor that was sent under the
number of the call. -/
def Has (s : Connection) (id : StripeId) (l : Listener) (n : Nat) : Prop :=
  n ≤ l.stop - l.start ∧ (s.arrived id).isSome = true ∧ ∃ tensor ranges, s.Started id.1 tensor ranges ∧
    ∀ call, s.recvs id.1 = some call → ∀ x < n, call.buffer[l.start + x]? = tensor[l.start + x]?

def Written (s : Connection) : Prop :=
  ∀ id l n, s.listeners id = some l → progress l = some n → s.Has id l n

theorem Has.congr {s s' : Connection} {id : StripeId} {l : Listener} {n : Nat} (h : s.Has id l n)
    (harrived : (s.arrived id).isSome = true → (s'.arrived id).isSome = true)
    (hsends : ∀ tensor ranges, s.Started id.1 tensor ranges → s'.Started id.1 tensor ranges)
    (hrecvs : ∀ call', s'.recvs id.1 = some call' → ∃ call, s.recvs id.1 = some call ∧
      ∀ x < n, call'.buffer[l.start + x]? = call.buffer[l.start + x]?) : s'.Has id l n := by
  obtain ⟨hn, hconnected, tensor, ranges, hsend, hbytes⟩ := h
  refine ⟨hn, harrived hconnected, tensor, ranges, hsends tensor ranges hsend, ?_⟩
  intro call' hcall' x hx
  obtain ⟨call, hcall, hsame⟩ := hrecvs call' hcall'
  rw [hsame x hx, hbytes call hcall x hx]

/-- The sender's steps leave what has started, and the receiver. -/
theorem Written.sender {s s' : Connection} (h : s.Written) (hlisteners : s'.listeners = s.listeners)
    (hrecvs : s'.recvs = s.recvs) (harrived : ∀ id, (s.arrived id).isSome = true → (s'.arrived id).isSome = true)
    (hsends : ∀ k tensor ranges, s.Started k tensor ranges → s'.Started k tensor ranges) : s'.Written := by
  intro id l n hl hn
  rw [hlisteners] at hl
  refine (h id l n hl hn).congr (harrived id) (hsends id.1) (fun call' hcall' => ?_)
  rw [hrecvs] at hcall'
  exact ⟨call', hcall', fun _ _ => rfl⟩

theorem Written.send {s s' : Connection} (hw : s.Wired) (h : s.Written) {dst : Nat} {tensor : List UInt8}
    (hstep : step dst (.send tensor) s = some s') : s'.Written := by
  obtain rfl := Option.some.inj hstep
  refine h.sender rfl rfl (fun _ hsome => hsome) (fun k tensor' ranges hk => ?_)
  have hne : k ≠ s.sendSeq := by
    rintro rfl
    rw [Started, hw.sends _ (Nat.le_refl _)] at hk
    cases hk
  dsimp only [Started]
  rw [Function.update_of_ne hne]
  exact hk

theorem Written.take {s s' : Connection} (h : s.Written) {dst seq : Nat}
    (hstep : step dst (.take seq) s = some s') : s'.Written := by
  obtain ⟨tensor, ready, rest, hsend, _, hcases⟩ := take_some hstep
  have hkept : ∀ call, ∀ k tensor' ranges, s.Started k tensor' ranges →
      Function.update s.sends seq (some call) k = some ⟨tensor', .started ranges⟩ := by
    intro call k tensor' ranges hk
    have hne : k ≠ seq := by
      rintro rfl
      rw [Started, hsend] at hk
      cases hk
    rw [Function.update_of_ne hne]
    exact hk
  rcases hcases with ⟨e, _, rfl⟩ | ⟨r, _, _, _, rfl⟩
  · exact h.sender rfl rfl (fun _ hsome => hsome) (hkept _)
  · exact h.sender rfl rfl (fun _ hsome => hsome) (hkept _)

theorem Written.recv {s s' : Connection} (h : s.Written) {dst : Nat} {envs : Envs}
    {buffer : List UInt8} {ports : List Nat} (hstep : step dst (.recv envs buffer ports) s = some s') :
    s'.Written := by
  obtain ⟨_, _, _, rfl⟩ := recv_some hstep
  intro id l n hl hn
  dsimp only at hl
  by_cases hnew : id.1 = s.recvSeq
  · rw [launch_of_eq hnew, List.getElem?_map] at hl
    obtain ⟨p, _, rfl⟩ := Option.map_eq_some_iff.mp hl
    cases hn
  · rw [launch_of_ne hnew] at hl
    refine (h id l n hl hn).congr (fun hsome => hsome) (fun _ _ hk => hk) (fun call' hcall' => ?_)
    dsimp only at hcall'
    rw [Function.update_of_ne hnew] at hcall'
    exact ⟨call', hcall', fun _ _ => rfl⟩

theorem Written.announce {s s' : Connection} (h : s.Written) {dst k : Nat}
    (hstep : step dst (.announce k) s = some s') : s'.Written := by
  obtain ⟨call, hcall, rfl⟩ := announce_some hstep
  intro id l n hl hn
  refine (h id l n hl hn).congr (fun hsome => hsome) (fun _ _ hk => hk) (fun call' hcall' => ?_)
  dsimp only at hcall'
  by_cases hk : id.1 = k
  · rw [hk, Function.update_self] at hcall'
    cases hcall'
    exact ⟨call, by rw [hk]; exact hcall, fun _ _ => rfl⟩
  · rw [Function.update_of_ne hk] at hcall'
    exact ⟨call', hcall', fun _ _ => rfl⟩

/-- A thread that moves on has what it had; one that has accepted has nothing, of a send that has started. -/
theorem Written.thread {s s' : Connection} (hw : s.Wired) (ho : s.Own) (h : s.Written) {dst : Nat} {a : Action}
    (hstep : step dst a s = some s') (ha : ∃ id, a = .accept id ∨ a = .finish id ∨ a = .fail id) :
    s'.Written := by
  obtain ⟨id, l, phase, hl, rfl, hphase⟩ := thread_some hstep ha
  intro other l' n hl' hn
  by_cases hother : other = id
  · subst hother
    dsimp only [setPhase] at hl'
    rw [Function.update_self] at hl'
    cases hl'
    rcases hphase with rfl | ⟨rfl, payload, hpayload⟩ | ⟨rfl, hreading⟩
    · cases hn
    · cases hn
      obtain ⟨tensor, ranges, hstarted, _⟩ := ho.payload hw hl hpayload
      exact ⟨Nat.zero_le _, by dsimp only [setPhase]; rw [hpayload]; rfl, tensor, ranges, hstarted, fun _ _ x hx => absurd hx (Nat.not_lt_zero x)⟩
    · cases hn
      exact h other l _ hl (by rw [progress, hreading])
  · dsimp only [setPhase] at hl'
    rw [Function.update_of_ne hother] at hl'
    exact h other l' n hl' hn

/-- The parts of two threads of one call do not meet. -/
theorem Wired.apart {s : Connection} (h : s.Wired) {id other : StripeId} {l l' : Listener} {call : RecvCall}
    (hl : s.listeners id = some l) (hl' : s.listeners other = some l') (hne : other ≠ id)
    (hsame : other.1 = id.1) (hcall : s.recvs id.1 = some call) : l.stop ≤ l'.start ∨ l'.stop ≤ l.start := by
  have hranges := (h.split id.1 _ _ _ (by rw [shapes, hcall]; rfl)).1
  obtain ⟨_, hrange, _⟩ := h.part hl hcall
  obtain ⟨_, hrange', _⟩ := h.part hl' (by rw [hsame]; exact hcall)
  rw [hranges] at hrange hrange'
  exact stripeRanges_disjoint (fun hindex => hne (Prod.ext hsame hindex.symm)) hrange hrange'

/-- A read puts the next bytes of the tensor behind those that the thread has written. -/
theorem Written.read {s s' : Connection} (hw : s.Wired) (ho : s.Own) (h : s.Written) {id : StripeId} {length : Nat}
    (hstep : s.read id length = some s') : s'.Written := by
  obtain ⟨l, payload, received, call, hl, hpayload, hphase, hcall, hpart, hlength, rfl⟩ := read_some hstep
  obtain ⟨hpiece, hfits⟩ := hw.fits hl hcall hpart hlength
  intro other l' n hl' hn
  by_cases hother : other = id
  · subst hother
    dsimp only [setPhase] at hl'
    rw [Function.update_self] at hl'
    cases hl'
    cases hn
    obtain ⟨_, hconnected, tensor, ranges, hstarted, hbytes⟩ := h other l received hl (by rw [progress, hphase])
    obtain ⟨tensor', ranges', hstarted', hslice⟩ := ho.payload hw hl hpayload
    rw [Started, hstarted] at hstarted'
    cases hstarted'
    refine ⟨hpart, hconnected, tensor, ranges, hstarted, ?_⟩
    intro call' hcall' x hx
    dsimp only at hcall'
    rw [Function.update_self] at hcall'
    cases hcall'
    dsimp only
    rw [getElem?_overwrite hfits, hpiece]
    by_cases hold : x < received
    · rw [if_neg (by omega)]
      exact hbytes call hcall x hold
    · rw [if_pos (by omega), List.getElem?_take_of_lt (by omega), List.getElem?_drop, hslice, slice,
        List.getElem?_take_of_lt (by omega), List.getElem?_drop]
      congr 1
      omega
  · dsimp only [setPhase] at hl'
    rw [Function.update_of_ne hother] at hl'
    have hhas := h other l' n hl' hn
    refine hhas.congr (fun hsome => hsome) (fun _ _ hk => hk) (fun call' hcall' => ?_)
    dsimp only at hcall'
    by_cases hsame : other.1 = id.1
    · rw [hsame, Function.update_self] at hcall'
      cases hcall'
      refine ⟨call, by rw [hsame]; exact hcall, fun x hx => ?_⟩
      have hapart := hw.apart hl hl' hother hsame hcall
      have hle := hhas.1
      dsimp only
      rw [getElem?_overwrite hfits, hpiece, if_neg (by omega)]
    · rw [Function.update_of_ne hsame] at hcall'
      exact ⟨call', hcall', fun _ _ => rfl⟩

theorem written_step {s s' : Connection} {dst : Nat} {a : Action} (hstep : step dst a s = some s')
    (hw : s.Wired) (ho : s.Own) (h : s.Written) : s'.Written := by
  cases a with
  | send tensor => exact h.send hw hstep
  | take seq => exact h.take hstep
  | recv envs buffer ports => exact h.recv hstep
  | announce seq => exact h.announce hstep
  | object typeName => cases hstep; exact h.sender rfl rfl (fun _ hsome => hsome) (fun _ _ _ hk => hk)
  | connect f t =>
    obtain ⟨st, l, _, _, _, _, _, rfl⟩ := connect_some hstep
    refine h.sender rfl rfl (fun id hsome => ?_) (fun _ _ _ hk => hk)
    dsimp only
    by_cases hid : id = t
    · rw [hid, Function.update_self]
      rfl
    · rwa [Function.update_of_ne hid]
  | accept id => exact h.thread hw ho hstep ⟨id, .inl rfl⟩
  | read id length => exact h.read hw ho hstep
  | finish id => exact h.thread hw ho hstep ⟨id, .inr (.inl rfl)⟩
  | fail id => exact h.thread hw ho hstep ⟨id, .inr (.inr rfl)⟩

/-- What holds in every state of a run that gives no awaited port out again. -/
structure Sound (s : Connection) : Prop where
  wired : s.Wired
  own : s.Own
  written : s.Written

theorem sound_step {s s' : Connection} {dst : Nat} {a : Action} (hfresh : s.Fresh a) (hstep : step dst a s = some s')
    (h : s.Sound) : s'.Sound where
  wired := wired_step hstep h.wired
  own := own_step hfresh hstep h.wired h.own
  written := written_step hstep h.wired h.own h.written

theorem reachable {dst : Nat} {as : List Action} {s : Connection} (h : Leads (step dst) as start s)
    (hfresh : Throughout (step dst) Fresh as start) : s.Sound := by
  refine h.throughout (fun a s t => sound_step) hfresh ⟨start_wired, start_own, ?_⟩
  intro id l n hl
  cases hl

/-- What the sender of a started call has to do with the receiver's call of the same number. -/
theorem Wired.same_split {s : Connection} (h : s.Wired) {k : Nat} {tensor : List UInt8}
    {ranges : List (Nat × Nat)} (hsend : s.Started k tensor ranges) :
    ∃ call, s.recvs k = some call ∧ call.buffer.length = tensor.length ∧ call.ranges = ranges ∧
      ranges = stripeRanges tensor.length call.ports.length := by
  obtain ⟨ports, hshape⟩ := h.started k tensor ranges hsend
  have hranges := (h.split k _ _ _ hshape).1
  obtain ⟨call, hcall, hcallShape⟩ := Option.map_eq_some_iff.mp hshape
  simp only [RecvCall.shape, Prod.mk.injEq] at hcallShape
  obtain ⟨hsize, hsame, rfl⟩ := hcallShape
  exact ⟨call, hcall, hsize, hsame, hranges⟩

/-- The listener of a stripe of a receive. -/
theorem Wired.listener {s : Connection} (h : s.Wired) {k i : Nat} {call : RecvCall} (hcall : s.recvs k = some call)
    {r : Nat × Nat} (hr : call.ranges[i]? = some r) :
    i < call.ports.length ∧ ∃ l, s.listeners (k, i) = some l ∧ l.start = r.1 ∧ l.stop = r.2 := by
  have hshape : s.shapes k = some (call.buffer.length, call.ranges, call.ports) := by rw [shapes, hcall]; rfl
  have hlength := (h.split k _ _ _ hshape).2
  have hlt := (List.getElem?_eq_some_iff.mp hr).1
  obtain ⟨p, hp⟩ : ∃ p, call.ports[i]? = some p := ⟨_, List.getElem?_eq_getElem (by omega)⟩
  have hspot := h.spots (k, i)
  have hzip : (call.ports.zip call.ranges)[i]? = some (p, r) := List.getElem?_zip_eq_some.mpr ⟨hp, hr⟩
  rw [hshape, Option.bind_some] at hspot
  dsimp only at hspot
  rw [hzip] at hspot
  obtain ⟨l, hl, hlspot⟩ := Option.map_eq_some_iff.mp hspot
  cases hlspot
  exact ⟨by omega, l, hl, rfl, rfl⟩

/-- All threads of a receive are done: its buffer is the tensor that was sent under its number. -/
theorem Sound.returned {s : Connection} (h : s.Sound) {k : Nat} {call : RecvCall}
    (hcall : s.recvs k = some call) (hreturns : s.Returns k call) :
    ∃ ranges, s.Started k call.buffer ranges := by
  have hshape : s.shapes k = some (call.buffer.length, call.ranges, call.ports) := by rw [shapes, hcall]; rfl
  obtain ⟨hranges, _⟩ := h.wired.split k _ _ _ hshape
  -- Of a part, the thread has written all.
  have hpart : ∀ r ∈ call.ranges, ∃ tensor ranges, s.Started k tensor ranges ∧
      ∀ x, r.1 ≤ x → x < r.2 → call.buffer[x]? = tensor[x]? := by
    intro r hr
    obtain ⟨i, hi⟩ := List.mem_iff_getElem?.mp hr
    obtain ⟨hlt, l, hl, hstart, hstop⟩ := h.wired.listener hcall hi
    obtain ⟨l', hl', hdone⟩ := hreturns i hlt
    rw [hl, Option.some_inj] at hl'
    subst hl'
    obtain ⟨_, _, tensor, ranges, hsend, hbytes⟩ := h.written (k, i) l _ hl (by rw [progress, hdone])
    refine ⟨tensor, ranges, hsend, fun x hlo hhi => ?_⟩
    have hx := hbytes call hcall (x - l.start) (by omega)
    rwa [Nat.add_sub_cancel' (by omega)] at hx
  have hne : call.ranges ≠ [] := by rw [hranges]; exact stripeRanges_ne_nil _ _
  obtain ⟨r, hr⟩ := List.exists_mem_of_ne_nil _ hne
  obtain ⟨tensor, ranges, hsend, _⟩ := hpart r hr
  obtain ⟨call', hcall', hsize, _, _⟩ := h.wired.same_split hsend
  rw [hcall, Option.some_inj] at hcall'
  subst hcall'
  have hbuffer : call.buffer = tensor := by
    refine List.ext_getElem? (fun x => ?_)
    by_cases hx : x < call.buffer.length
    · -- the byte is in one of the parts
      have hone := @stripeRanges_tile call.buffer.length call.ports.length x hx
      rw [← hranges] at hone
      have hpos : 0 < call.ranges.countP (fun r => r.1 ≤ x ∧ x < r.2) := by omega
      obtain ⟨r', hr', hhas⟩ := List.countP_pos_iff.mp hpos
      obtain ⟨tensor', _, hsend', hbytes⟩ := hpart r' hr'
      rw [Started, hsend] at hsend'
      cases hsend'
      obtain ⟨hlo, hhi⟩ := of_decide_eq_true hhas
      exact hbytes x hlo hhi
    · rw [List.getElem?_eq_none (by omega), List.getElem?_eq_none (by omega)]
  exact ⟨ranges, by rw [hbuffer]; exact hsend⟩

/-! ## Getting to the end -/

/-- The send of number `k` has started, and none of the threads of the receive has failed. -/
structure Served (s : Connection) (k count : Nat) : Prop where
  sound : s.Sound
  started : ∃ tensor ranges, s.Started k tensor ranges
  shape : ∃ n ranges ports, s.shapes k = some (n, ranges, ports) ∧ ports.length = count
  unfailed : ∀ i < count, ∀ l, s.listeners (k, i) = some l → l.phase ≠ .failed

/-- An upper bound for the steps of a thread that reads all there is at once. -/
def remaining (l : Listener) : Nat :=
  match l.phase with
  | .listening => l.stop - l.start + 2
  | .reading received => l.stop - l.start - received + 1
  | _ => 0

/-- The same, with the step in which the sender's thread connects. -/
def cost (s : Connection) (id : StripeId) : Nat :=
  ((s.listeners id).map remaining).getD 0 + if (s.arrived id).isNone then 1 else 0

def rank (k count : Nat) (s : Connection) : Nat := ((List.range count).map fun i => s.cost (k, i)).sum

/-- At a listener of the receive, the sender's thread has the whole part of the tensor. -/
theorem Served.served {s : Connection} {k count i : Nat} (h : s.Served k count) (hi : i < count) :
    ∃ l st call, s.listeners (k, i) = some l ∧ s.stripes (k, i) = some st ∧ s.recvs k = some call ∧
      l.port = st.port ∧ st.payload.length = l.stop - l.start := by
  obtain ⟨n, ranges, ports, hshape, rfl⟩ := h.shape
  obtain ⟨tensor, sent, hstarted⟩ := h.started
  obtain ⟨call, hcall, hsize, _, _⟩ := h.sound.wired.same_split hstarted
  have hlength := (h.sound.wired.split k _ _ _ hshape).2
  rw [shapes, hcall] at hshape
  cases hshape
  obtain ⟨r, hr⟩ : ∃ r, call.ranges[i]? = some r := ⟨_, List.getElem?_eq_getElem (by omega)⟩
  obtain ⟨_, l, hl, _, _⟩ := h.sound.wired.listener hcall hr
  have hload := h.sound.wired.loads (k, i) tensor sent hstarted
  rw [Connection.spots, hl] at hload
  obtain ⟨st, hst, hsame⟩ := Option.map_eq_some_iff.mp hload
  obtain ⟨_, _, hle, hbuffer⟩ := h.sound.wired.part hl hcall
  refine ⟨l, st, call, hl, hst, hcall, (congrArg Prod.fst hsame).symm, ?_⟩
  have hpayload : st.payload = slice tensor l.start l.stop := congrArg Prod.snd hsame
  rw [hpayload, slice, List.length_take, List.length_drop]
  omega

/-- A step of one thread of the receive, or of the sender's thread for it, that does not fail. -/
theorem Served.moved {s s' : Connection} {k count i : Nat} (h : s.Served k count) (hi : i < count) {dst : Nat}
    {a : Action} (hstep : step dst a s = some s') (hfresh : s.Fresh a) (hsends : s'.sends = s.sends)
    (hshapes : s'.shapes = s.shapes)
    (hothers : ∀ id ≠ (k, i), s'.listeners id = s.listeners id ∧ s'.arrived id = s.arrived id)
    (hphase : ∀ l', s'.listeners (k, i) = some l' → l'.phase ≠ .failed)
    (hless : s'.cost (k, i) < s.cost (k, i)) : s'.Served k count ∧ rank k count s' < rank k count s := by
  have hother : ∀ j, j ≠ i → s'.listeners (k, j) = s.listeners (k, j) ∧ s'.arrived (k, j) = s.arrived (k, j) :=
    fun j hj => hothers (k, j) fun heq => hj (congrArg Prod.snd heq)
  refine ⟨⟨sound_step hfresh hstep h.sound, ?_, ?_, ?_⟩, ?_⟩
  · unfold Started
    rw [hsends]
    exact h.started
  · rw [hshapes]
    exact h.shape
  · intro j hj l' hl'
    by_cases hji : j = i
    · rw [hji] at hl'
      exact hphase l' hl'
    · rw [(hother j hji).1] at hl'
      exact h.unfailed j hj l' hl'
  · unfold rank
    refine List.sum_lt_sum _ _ (fun j _ => ?_) ⟨i, List.mem_range.mpr hi, hless⟩
    by_cases hji : j = i
    · rw [hji]
      exact Nat.le_of_lt hless
    · unfold cost
      rw [(hother j hji).1, (hother j hji).2]

/-- A thread of the receive moves on without failing. -/
theorem Served.phase_moved {s s' : Connection} {k count i : Nat} (h : s.Served k count) (hi : i < count) {dst : Nat}
    {a : Action} (hstep : step dst a s = some s') (hfresh : s.Fresh a) {l : Listener} {phase : Phase}
    (hl : s.listeners (k, i) = some l)
    (hlisteners : s'.listeners = Function.update s.listeners (k, i) (some { l with phase := phase }))
    (harrived : s'.arrived = s.arrived) (hsends : s'.sends = s.sends) (hshapes : s'.shapes = s.shapes)
    (hphase : phase ≠ .failed) (hless : remaining { l with phase := phase } < remaining l) :
    s'.Served k count ∧ rank k count s' < rank k count s := by
  refine h.moved hi hstep hfresh hsends hshapes (fun id hid => ?_) (fun l' hl' => ?_) ?_
  · rw [hlisteners, harrived, Function.update_of_ne hid]
    exact ⟨rfl, rfl⟩
  · rw [hlisteners, Function.update_self] at hl'
    cases hl'
    exact hphase
  · unfold cost
    rw [hlisteners, harrived, Function.update_self, hl]
    simpa using hless

/-- A thread that is not done can take its next step, or the sender's thread for it: connect, accept, read all that
is left, or end. -/
theorem Served.progress {s : Connection} {k count i : Nat} (dst : Nat) (h : s.Served k count) (hi : i < count)
    {l : Listener} (hl : s.listeners (k, i) = some l) (hdone : l.phase ≠ .done) :
    ∃ a s', step dst a s = some s' ∧ s'.Served k count ∧ rank k count s' < rank k count s := by
  obtain ⟨l', st, call, hl', hst, hcall, hport, hlength⟩ := h.served hi
  rw [hl, Option.some_inj] at hl'
  subst hl'
  have harrived := h.sound.own.arrived (k, i)
  rw [hst] at harrived
  cases hphase : l.phase with
  | done => exact absurd hphase hdone
  | failed => exact absurd hphase (h.unfailed i hi l hl)
  | listening =>
    cases hopen : st.connected with
    | false =>
      rw [Option.filter_some, if_neg (by simp [hopen]), Option.map_none] at harrived
      have hstep : step dst (.connect (k, i) (k, i)) s = some { s with
          stripes := Function.update s.stripes (k, i) (some { st with connected := true })
          arrived := Function.update s.arrived (k, i) (some st.payload) } := by
        simp only [step, connect, hst, hl, hopen, hport, hphase, harrived, Option.isNone_none, and_self, if_true]
      refine ⟨_, _, hstep, h.moved hi hstep trivial rfl rfl (fun id hid => ?_) (fun l' hl' => ?_) ?_⟩
      · exact ⟨rfl, Function.update_of_ne hid _ _⟩
      · exact h.unfailed i hi l' hl'
      · unfold cost
        simp [harrived, Function.update_self]
    | true =>
      rw [Option.filter_some, if_pos hopen, Option.map_some] at harrived
      have hstep : step dst (.accept (k, i)) s = some (s.setPhase (k, i) l (.reading 0)) := by
        simp only [step, hl, harrived, hphase, if_true]
      refine ⟨_, _, hstep, h.phase_moved hi hstep trivial hl rfl rfl rfl rfl (fun hf => by cases hf) ?_⟩
      simp only [remaining, hphase]
      omega
  | reading received =>
    obtain ⟨hle, hconnected, _⟩ := h.sound.written (k, i) l received hl (by rw [Connection.progress, hphase])
    by_cases hall : received = l.stop - l.start
    · have hstep : step dst (.finish (k, i)) s = some (s.setPhase (k, i) l .done) := by
        simp only [step, hl, hphase, hall, if_true]
      refine ⟨_, _, hstep, h.phase_moved hi hstep trivial hl rfl rfl rfl rfl (fun hf => by cases hf) ?_⟩
      simp only [remaining, hphase]
      omega
    · have hpayload : s.arrived (k, i) = some st.payload := by
        rw [harrived] at hconnected ⊢
        cases hopen : st.connected with
        | true => simp [hopen]
        | false => simp [hopen] at hconnected
      have hfits : 0 < l.stop - l.start - received ∧
          received + (l.stop - l.start - received) ≤ l.stop - l.start ∧
          received + (l.stop - l.start - received) ≤ st.payload.length := by omega
      have hread := h.sound.wired.fits hl hcall hfits.2.1 hfits.2.2
      have hstep : step dst (.read (k, i) (l.stop - l.start - received)) s =
          some { s.setPhase (k, i) l (.reading (received + (l.stop - l.start - received))) with
            recvs := Function.update s.recvs k (some { call with
              buffer := overwrite call.buffer ((st.payload.drop received).take (l.stop - l.start - received))
                (l.start + received) }) } := by
        simp only [step, read, hl, hpayload, hphase, hcall, if_pos hfits]
      refine ⟨_, _, hstep, h.phase_moved hi hstep trivial hl rfl rfl rfl ?_ (fun hf => by cases hf) ?_⟩
      · refine shapes_update hcall ?_
        rw [RecvCall.shape, RecvCall.shape, length_overwrite hread.2]
      · simp only [remaining, hphase]
        omega

/-- Whatever has happened, a served receive can still return. -/
theorem Served.completes {s : Connection} {k count : Nat} (dst : Nat) (h : s.Served k count) :
    ∃ as t call, Leads (step dst) as s t ∧ t.recvs k = some call ∧ t.Returns k call := by
  have hprogress : ∀ s : Connection, s.Served k count → ¬ (∀ i < count, ∃ l, s.listeners (k, i) = some l ∧
      l.phase = .done) → ∃ a t, step dst a s = some t ∧ t.Served k count ∧ rank k count t < rank k count s := by
    intro s hs hnot
    push Not at hnot
    obtain ⟨i, hi, hopen⟩ := hnot
    obtain ⟨l, _, _, hl, _⟩ := hs.served hi
    exact hs.progress dst hi hl (hopen l hl)
  obtain ⟨as, t, hleads, ht, hend⟩ := exists_end hprogress h
  obtain ⟨n, ranges, ports, hshape, rfl⟩ := ht.shape
  obtain ⟨call, hcall, hcallShape⟩ := Option.map_eq_some_iff.mp hshape
  cases hcallShape
  exact ⟨as, t, call, hleads, hcall, hend⟩

/-- What the channel promises in a state: a send that has started splits its tensor as the receive of the same
number, into ranges that tile it; a receive that returns has the tensor sent under its number; and while no thread
of a receive whose send has started has failed, it can return. -/
structure Delivers (dst : Nat) (s : Connection) : Prop where
  tiles : ∀ k tensor ranges, s.sends k = some ⟨tensor, .started ranges⟩ →
    ∃ call, s.recvs k = some call ∧ call.buffer.length = tensor.length ∧ call.ranges = ranges ∧
      (∀ r ∈ ranges, r.1 ≤ r.2 ∧ r.2 ≤ tensor.length) ∧
      ∀ x < tensor.length, ranges.countP (fun r => r.1 ≤ x ∧ x < r.2) = 1
  returns : ∀ k call, s.recvs k = some call → s.Returns k call →
    ∃ ranges, s.sends k = some ⟨call.buffer, .started ranges⟩
  completes : ∀ k tensor ranges call, s.sends k = some ⟨tensor, .started ranges⟩ → s.recvs k = some call →
    (∀ i < call.ports.length, ∀ l, s.listeners (k, i) = some l → l.phase ≠ .failed) →
    ∃ bs t call', Leads (step dst) bs s t ∧ t.recvs k = some call' ∧ t.Returns k call'

/-- While no listener gets a port to which a thread of the sender may still connect, the channel keeps its promise. -/
theorem channel_delivers {dst : Nat} {as : List Action} {s : Connection} (h : Leads (step dst) as start s)
    (hfresh : Throughout (step dst) Fresh as start) : s.Delivers dst := by
  have hs := reachable h hfresh
  refine ⟨fun k tensor ranges hsend => ?_, fun k call hcall hreturns => hs.returned hcall hreturns,
    fun k tensor ranges call hsend hcall hclear => ?_⟩
  · obtain ⟨call, hcall, hsize, hsame, hranges⟩ := hs.wired.same_split hsend
    refine ⟨call, hcall, hsize, hsame, ?_, ?_⟩
    · intro r hr
      rw [hranges] at hr
      exact stripeRanges_within hr
    · intro x hx
      rw [hranges]
      exact stripeRanges_tile hx
  · have hserved : s.Served k call.ports.length :=
      ⟨hs, ⟨tensor, ranges, hsend⟩, ⟨_, _, _, by rw [shapes, hcall]; rfl, rfl⟩, hclear⟩
    exact hserved.completes dst

/-- Two stripes of five bytes; the second is accepted first and is read byte by byte. The next receive gets one of
the ports again. -/
def interleaved : List Action :=
  [.recv ⟨true, 1, 2, 1⟩ [0, 0, 0, 0, 0] [40001, 40002], .send [1, 2, 3, 4, 5], .announce 0, .take 0,
    .connect (0, 1) (0, 1), .accept (0, 1), .read (0, 1) 1, .connect (0, 0) (0, 0), .accept (0, 0),
    .recv ⟨true, 1, 2, 1⟩ [0] [40001], .read (0, 0) 3, .finish (0, 0), .read (0, 1) 1, .finish (0, 1)]

theorem channel_delivers_interleaved :
    ∃ s, Leads (step 1) interleaved start s ∧ s.recvs 0 = some ⟨[1, 2, 3, 4, 5], [(0, 3), (3, 5)], [40001, 40002], true⟩ ∧
      s.Returns 0 ⟨[1, 2, 3, 4, 5], [(0, 3), (3, 5)], [40001, 40002], true⟩ ∧ s.Delivers 1 := by
  obtain ⟨s, hs⟩ : ∃ s, follow (step 1) interleaved start = some s := ⟨_, rfl⟩
  refine ⟨s, leads_of_follow hs, ?_, ?_, channel_delivers (leads_of_follow hs) (by decide +kernel)⟩
  · obtain rfl := Option.some.inj hs
    rfl
  · obtain rfl := Option.some.inj hs
    rintro (_ | _ | i) hi
    · exact ⟨_, rfl, rfl⟩
    · exact ⟨_, rfl, rfl⟩
    · have hlt : i + 1 + 1 < 2 := hi
      omega

/-- The first receive gives up before the sender's thread connects, and the second one gets its port. -/
def lateStripe : List Action :=
  [.recv ⟨true, 1, 1, 1⟩ [0] [40001], .send [1], .announce 0, .take 0, .fail (0, 0),
    .recv ⟨true, 1, 1, 1⟩ [0] [40001], .connect (0, 0) (1, 0), .accept (1, 0), .read (1, 0) 1, .finish (1, 0),
    .send [2], .announce 1, .take 1]

/-- The second receive returns, with the first tensor. -/
theorem channel_mixes_tensors : ∃ s, Leads (step 1) lateStripe start s ∧ ¬ s.Delivers 1 := by
  obtain ⟨s, hs⟩ : ∃ s, follow (step 1) lateStripe start = some s := ⟨_, rfl⟩
  have hsent : (follow (step 1) lateStripe start).bind (fun s => s.sends 1) = some ⟨[2], .started [(0, 1)]⟩ := rfl
  have hgot : (follow (step 1) lateStripe start).bind (fun s => s.recvs 1) = some ⟨[1], [(0, 1)], [40001], true⟩ := rfl
  have hreturned : s.Returns 1 ⟨[1], [(0, 1)], [40001], true⟩ := by
    obtain rfl := Option.some.inj hs
    rintro (_ | i) hi
    · exact ⟨_, rfl, rfl⟩
    · simp at hi
  rw [hs, Option.bind_some] at hsent hgot
  refine ⟨s, leads_of_follow hs, fun h => ?_⟩
  obtain ⟨ranges, hsend⟩ := h.returns 1 _ hgot hreturned
  rw [hsent] at hsend
  cases hsend

end Connection

end Runtime
end Ds4Spark
