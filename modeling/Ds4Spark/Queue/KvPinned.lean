import Ds4Spark.Queue.Tenancy

/-!
# Ds4Spark.Queue.KvPinned

KV in use is pinned: the slots a tenant relies on are in use, and no reservation takes them away.

A slot has one owner, the last request that reserved it, and settling a request frees what it owns.
With one key for several requests the owner may be settled while the others still rely on the slot;
`SparesShared` says that a call frees no slot of a request that outlasts it.

The layouts a `prepare_ready` is called with are not stored, so a run carries them along
(`Prepared`).
-/

namespace Ds4Spark
namespace Queue

/-- The queue, and the layout each request was offered when it was last prepared. -/
structure Prepared where
  db : Db
  layout : String → Option Layout

namespace Prepared

def empty : Prepared := ⟨Db.empty, fun _ => none⟩

/-- A `prepare_ready` offers every queued request the layout of its profile. -/
def offers (p : Prepared) (rid : String) : Op → Option Layout
  | .prepareReady args =>
    match (p.db.request? rid).filter (fun r => r.state = .queued) with
    | some row => args.layout row
    | none => p.layout rid
  | _ => p.layout rid

def next (op : Op) (p : Prepared) : Prepared := ⟨op.next p.db, fun rid => p.offers rid op⟩

theorem run_db (ops : List Op) (p : Prepared) : (run next ops p).db = run Op.next ops p.db := by
  induction ops generalizing p with
  | nil => rfl
  | cons op ops ih => exact ih (next op p)

/-- The request is ready or running, and the slot is one it needs. -/
def Relies (p : Prepared) (rid : String) (s : Slot) : Prop :=
  ∃ f, p.db.tenant rid = some f ∧ s ∈ f (p.layout rid)

end Prepared

structure Pinned (p : Prepared) : Prop where
  used : ∀ rid s, p.Relies rid s → p.db.pool.Used s
  kept : ∀ rid s, p.Relies rid s → ∀ (row : RequestRow) (node : Option String) (capacity : Int)
    (now : Time) (layout : Option Layout) (db' : Db),
      p.db.reserveKv row node capacity now layout = some db' → db'.pool.Used s

/-- The call frees what the request owns: it settles it, and is not the reaper failing it. -/
def Op.frees (op : Op) (db : Db) (rid : String) : Prop := op.settles db rid ∧ ¬ op.expires db rid

/-- No slot of a request that outlasts the call is owned by a request the call frees. -/
def SparesShared (p : Prepared) (op : Op) : Prop :=
  ∀ rid s h, p.Relies rid s → ¬ op.settles p.db rid → p.db.pool s = some h → ¬ op.frees p.db h.owner

section Pinning

variable {op : Op} {db₀ db db' : Db} {p : Prepared} {rid : String}

/-- Every slot of a request that outlasts the call is in use, under an owner that is not freed. -/
def Held (op : Op) (db₀ : Db) (layout : String → Option Layout) (db : Db) : Prop :=
  ∀ rid f, db.tenant rid = some f → ¬ op.settles db₀ rid → ∀ s ∈ f (layout rid),
    ∃ h, db.pool s = some h ∧ h.inUse = true ∧ ¬ op.frees db₀ h.owner

theorem KvStep.held {layout : String → Option Layout} (h : KvStep op db₀ db db')
    (hlayout : ∀ args row, op = .prepareReady args → db₀.request? row.requestId = some row →
      row.state = .queued → layout row.requestId = args.layout row)
    (hI : Held op db₀ layout db) : Held op db₀ layout db' := by
  intro rid f hf hset s hs
  -- a step that ends one tenancy leaves the others
  have hother : ∀ rid₀, db'.tenant = Function.update db.tenant rid₀ none →
      db.tenant rid = some f := by
    intro rid₀ ht
    rw [ht] at hf
    by_cases hk : rid = rid₀
    · rw [hk, Function.update_self] at hf
      cases hf
    · rwa [Function.update_of_ne hk] at hf
  cases h with
  | quiet ht hp =>
    rw [hp]
    exact hI rid f (ht ▸ hf) hset s hs
  | reserved args row relied slots hop h₀ hq hfree ht hlive hslots hp =>
    have hfrees : ∀ o, ¬ op.frees db₀ o := by
      intro o ho
      rw [hop] at ho
      exact ho.1
    by_cases hk : rid = row.requestId
    · subst hk
      rw [ht, Function.update_self] at hf
      rw [hlayout args row hop h₀ hq] at hs
      exact ⟨_, hp.mine s (hslots f hf s hs), rfl, hfrees _⟩
    · rw [ht, Function.update_of_ne hk] at hf
      obtain ⟨h, hps, hu, _⟩ := hI rid f hf hset s hs
      obtain ⟨h', hps', hu'⟩ := hp.used ⟨h, hps, hu⟩
      exact ⟨h', hps', hu', hfrees _⟩
  | freed rid₀ hset₀ hexp ht hp =>
    obtain ⟨h, hps, hu, hown⟩ := hI rid f (hother rid₀ ht) hset s hs
    have hne : h.owner ≠ rid₀ := fun he => hown (he ▸ ⟨hset₀, hexp⟩)
    refine ⟨h, ?_, hu, hown⟩
    rcases hp with hp | hp
    · rw [hp]
      exact Pool.drop_eq_some.mpr ⟨hps, hne⟩
    · rw [hp]
      exact Pool.rest_of_ne hps hne
  | left rid₀ hexp ht hp =>
    rw [hp]
    exact hI rid f (hother rid₀ ht) hset s hs

/-- A request the call settles is no tenant when it returns. -/
theorem settled_tenant {db : Db} (h : op.settles db rid) : (op.next db).tenant rid = none := by
  have hnone : ∀ {db' : Db} {row : RequestRow}, db'.request? rid = some row → row.serving = false →
      db'.tenant rid = none := by
    intro db' row hrow hs
    rw [tenant_of_request? hrow, tenancy_none hs]
  cases op with
  | finishRequest args =>
    obtain ⟨rfl, hterm, hsome⟩ := h
    obtain ⟨row, hrow⟩ := Option.isSome_iff_exists.mp hsome
    have hfinal : (args.final row).isTerminal = true := by
      unfold FinishArgs.final
      split
      · rfl
      · exact hterm
    simp only [Op.next, finishRequest, hterm, Bool.not_true, Bool.false_eq_true, if_false, hrow,
      committed]
    rw [tenant_ended (finish_request? hrow) (not_serving_of_terminal hfinal), Function.update_self]
  | retryTransportFailure args =>
    obtain ⟨rfl, hsome⟩ := h
    obtain ⟨row, hrow⟩ := Option.isSome_iff_exists.mp hsome
    simp only [Op.next, retryTransportFailure, hrow]
    rw [tenant_ended (retry_request? hrow) (settled_not_serving args), Function.update_self]
  | cancel args =>
    obtain ⟨target, ht, row, hrow, rfl, hchoice⟩ := h
    have hnext : (Op.cancel args).next db = db.cancelled args target := by
      simp only [Op.next, cancel, ht, bind, Except.bind, committed]
      rfl
    rw [hnext]
    refine hnone (cancelled_own hrow) ?_
    unfold CancelArgs.turned
    rcases hchoice with hc | hc <;> rw [hc] <;> rfl
  | requeueExpiredLeases args =>
    obtain ⟨row, hrow, rfl⟩ := h
    exact hnone (reaped_own hrow) (turned_not_serving args)
  | _ => cases h

theorem offers_of_tenant {f : Option Layout → List Slot} (h : p.db.tenant rid = some f) :
    p.offers rid op = p.layout rid := by
  cases op with
  | prepareReady args =>
    have hq : (p.db.request? rid).filter (fun r => r.state = .queued) = none := by
      cases hrow : p.db.request? rid with
      | none => rfl
      | some row =>
        have hs : row.state ≠ .queued := by
          intro hs
          rw [tenant_of_request? hrow, tenancy_none (by simp [RequestRow.serving, hs])] at h
          cases h
        simp [hs]
    simp only [Prepared.offers, hq]
  | _ => rfl

theorem offers_of_queued {args : PrepareArgs} {row : RequestRow}
    (h : p.db.request? row.requestId = some row) (hs : row.state = .queued) :
    p.offers row.requestId (.prepareReady args) = args.layout row := by
  have hq : (p.db.request? row.requestId).filter (fun r => r.state = .queued) = some row := by
    simp [h, hs]
  simp only [Prepared.offers, hq]

theorem next_used (hpre : NoPrefilling p.db) (hop : SparesShared p op)
    (hI : ∀ rid s, p.Relies rid s → p.db.pool.Used s) :
    ∀ rid s, (Prepared.next op p).Relies rid s → (Prepared.next op p).db.pool.Used s := by
  have hstart : Held op p.db (fun rid => p.offers rid op) p.db := by
    intro rid f hf hset s hs
    change s ∈ f (p.offers rid op) at hs
    rw [offers_of_tenant hf] at hs
    obtain ⟨h, hps, hu⟩ := hI rid s ⟨f, hf, hs⟩
    exact ⟨h, hps, hu, hop rid s h ⟨f, hf, hs⟩ hset hps⟩
  have hend := invariant_of_steps (R := Block op p.db) _ (fun _ _ hblock hI =>
    hblock.kvStep.held (fun args row hop h₀ hq => hop ▸ offers_of_queued h₀ hq) hI)
    (next_blocks hpre op) hstart
  rintro rid s ⟨f, hf, hs⟩
  have hset : ¬ op.settles p.db rid := by
    intro hset
    have hnone := settled_tenant hset
    rw [show (op.next p.db).tenant rid = some f from hf] at hnone
    cases hnone
  obtain ⟨h, hps, hu, _⟩ := hend rid f hf hset s hs
  exact ⟨h, hps, hu⟩

end Pinning

/-- KV in use is pinned, in every run whose calls free no slot that others still rely on. -/
theorem kv_pinned {ops : List Op} (hops : Along Prepared.next SparesShared ops Prepared.empty) :
    Pinned (run Prepared.next ops Prepared.empty) := by
  have hrun := hops.invariant (fun p => NoPrefilling p.db ∧
    ∀ rid s, p.Relies rid s → p.db.pool.Used s) ?_ ?_
  · refine ⟨hrun.2, ?_⟩
    intro rid s hs row node capacity now layout db' hres
    exact (reserveKv_reserves hres).used (hrun.2 rid s hs)
  · intro p op hop ⟨hpre, hI⟩
    exact ⟨next_noPrefilling hpre op, next_used hpre hop hI⟩
  · refine ⟨empty_noPrefilling, ?_⟩
    rintro rid s ⟨f, hf, _⟩
    cases hf

/-- Two model requests with one KV key, claimed under the leases `w:run:0` and `w:run:1`. -/
def keyShared : List Op := [modelCall "b" ["r", "s"] (kvInput "k" 8) none 0,
  prepareCall (some "n") 20 1, .claimReadyBatch (claimArgs "w" 2 2)]

/-- The end of one of them. -/
def keySharedFinish (rid lease : String) : Op :=
  .finishRequest { requestId := rid, leaseId := lease, state := .completed, result := [], now := 3 }

/-- The slot is owned by `s`, who was prepared last, so `r` may finish first. -/
theorem kv_pinned_shared :
    Pinned (run Prepared.next (keyShared ++ [keySharedFinish "r" "w:run:0"]) Prepared.empty) := by
  refine kv_pinned ⟨?_, ?_, ?_, ?_, trivial⟩
  · exact fun _ _ _ _ _ _ h => h.1
  · exact fun _ _ _ _ _ _ h => h.1
  · exact fun _ _ _ _ _ _ h => h.1
  · rintro rid s h - - hp ⟨⟨hid, -⟩, -⟩
    have hentries : ∀ e ∈ (run Op.next keyShared Db.empty).kvEntries.rows, e.requestId ≠ "r" := by
      decide +kernel
    have hshards : ∀ e ∈ (run Op.next keyShared Db.empty).kvShardEntries.rows, e.requestId ≠ "r" := by
      decide +kernel
    rcases pool_row hp with ⟨e, he, rfl⟩ | ⟨e, he, rfl⟩
    · exact hentries e he hid.symm
    · exact hshards e he hid.symm

/-- Without the condition it fails: the owner `s` finishes first, and the entry `r` still uses goes
idle, where the next reservation may evict it. -/
theorem kv_unpinned : ¬ ∀ ops : List Op, Pinned (run Prepared.next ops Prepared.empty) := by
  intro h
  have hp := h (keyShared ++ [keySharedFinish "s" "w:run:1"])
  have hrelies : (run Prepared.next (keyShared ++ [keySharedFinish "s" "w:run:1"])
      Prepared.empty).Relies "r" (.entry "n" "k") := by
    have hany : ((run Prepared.next (keyShared ++ [keySharedFinish "s" "w:run:1"])
        Prepared.empty).db.tenant "r").any (fun f => f none = [.entry "n" "k"]) = true := by
      decide +kernel
    obtain ⟨f, hf, hslots⟩ := (Option.any_eq_true _ _).mp hany
    refine ⟨f, hf, ?_⟩
    change _ ∈ f none
    rw [of_decide_eq_true hslots]
    simp
  obtain ⟨hold, hps, hu⟩ := hp.used _ _ hrelies
  have hidle : ((run Prepared.next (keyShared ++ [keySharedFinish "s" "w:run:1"])
      Prepared.empty).db.pool (.entry "n" "k")).map Holding.inUse = some false := by decide +kernel
  rw [hps, Option.map_some, hu] at hidle
  cases hidle

end Queue
end Ds4Spark
