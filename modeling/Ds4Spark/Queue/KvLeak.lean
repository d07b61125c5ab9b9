import Ds4Spark.Queue.Tenancy

/-!
# Ds4Spark.Queue.KvLeak

No leaked reservation: what is in use in the pool belongs to a tenant. Every way out of `ready` and
`running` frees or rests what the request owned, but one: the reaper leaves the KV of a request it
fails. `SparesHolders` says that it fails no request that holds KV.
-/

namespace Ds4Spark
namespace Queue

/-- A row in state `ready` of one of the KV tables is the request's. -/
def Db.holdsKv (db : Db) (rid : String) : Prop :=
  (∃ e ∈ db.kvEntries.rows, e.state = .ready ∧ e.requestId = rid) ∨
    ∃ e ∈ db.kvShardEntries.rows, e.state = .ready ∧ e.requestId = rid

/-- Every `ready` KV row belongs to a request that is ready or running. -/
def NoLeak (db : Db) : Prop :=
  ∀ rid, db.holdsKv rid → ∃ row, db.request? rid = some row ∧ row.serving = true

/-- The reaper fails no request that holds KV. -/
def SparesHolders (db : Db) (op : Op) : Prop := ∀ rid, op.expires db rid → ¬ db.holdsKv rid

section Leak

variable {op : Op} {db₀ db db' : Db} {rid : String}

theorem holdsKv_iff : db.holdsKv rid ↔ ∃ s h, db.pool s = some h ∧ h.inUse = true ∧ h.owner = rid := by
  constructor
  · rintro (⟨e, he, hs, hid⟩ | ⟨e, he, hs, hid⟩)
    · have hfind : db.kvEntries.find? (e.nodeId, e.kvKey) = some e := Table.find?_of_mem he
      exact ⟨.entry e.nodeId e.kvKey, e.holding, by simp [Db.pool, hfind],
        by simp [KvEntry.holding, hs], hid⟩
    · have hfind : db.kvShardEntries.find? (e.serviceId, e.nodeId, e.kvKey) = some e :=
        Table.find?_of_mem he
      exact ⟨.shard e.serviceId e.nodeId e.kvKey, e.holding, by simp [Db.pool, hfind],
        by simp [KvShardEntry.holding, hs], hid⟩
  · rintro ⟨s, h, hp, hu, ho⟩
    rcases pool_row hp with ⟨e, he, rfl⟩ | ⟨e, he, rfl⟩
    · exact .inl ⟨e, he, by simpa [KvEntry.holding] using hu, ho⟩
    · exact .inr ⟨e, he, by simpa [KvShardEntry.holding] using hu, ho⟩

def Db.isTenant (db : Db) (rid : String) : Prop := (db.tenant rid).isSome

/-- A step keeps: what is in use belongs to a tenant that the call does not fail. -/
theorem KvStep.backed (h : KvStep op db₀ db db')
    (hb : db.pool.Backed (fun o => db.isTenant o ∧ ¬ op.expires db₀ o)) :
    db'.pool.Backed (fun o => db'.isTenant o ∧ ¬ op.expires db₀ o) := by
  have hother : ∀ {rid t}, db'.tenant = Function.update db.tenant rid t →
      ∀ o, o ≠ rid → db.isTenant o ∧ ¬ op.expires db₀ o → db'.isTenant o ∧ ¬ op.expires db₀ o := by
    intro rid t ht o hne ho
    refine ⟨?_, ho.2⟩
    unfold Db.isTenant
    rw [ht, Function.update_of_ne hne]
    exact ho.1
  cases h with
  | quiet ht hp =>
    rw [hp, funext fun o => show (db'.isTenant o ∧ _) = _ by rw [Db.isTenant, ht]]
    exact hb
  | reserved args row relied slots hop h₀ hs hfree ht hlive hslots hp =>
    refine hb.reserves hp ?_ ?_
    · intro s hslot
      refine ⟨?_, by rw [hop]; exact id⟩
      unfold Db.isTenant
      rw [ht, Function.update_self]
      exact hlive s hslot
    · intro o ho
      refine hother ht o (fun he => ?_) ho
      have := ho.1
      rw [he, Db.isTenant, hfree] at this
      cases this
  | freed rid hset hexp ht hp =>
    rcases hp with hp | hp
    · rw [hp]
      exact hb.drop (hother ht)
    · rw [hp]
      exact hb.rest (hother ht)
  | left rid hexp ht hp =>
    rw [hp]
    intro s h hps hu
    have ho := hb s h hps hu
    exact hother ht h.owner (fun he => ho.2 (he ▸ hexp)) ho

theorem next_backed (hpre : NoPrefilling db) (hop : SparesHolders db op)
    (hb : db.pool.Backed db.isTenant) : (op.next db).pool.Backed (op.next db).isTenant := by
  have hstart : db.pool.Backed (fun o => db.isTenant o ∧ ¬ op.expires db o) := by
    intro s h hp hu
    exact ⟨hb s h hp hu, fun hexp => hop h.owner hexp (holdsKv_iff.mpr ⟨s, h, hp, hu, rfl⟩)⟩
  have hend := invariant_of_steps (R := Block op db)
    (fun db' => db'.pool.Backed (fun o => db'.isTenant o ∧ ¬ op.expires db o))
    (fun _ _ hblock hI => hblock.kvStep.backed hI) (next_blocks hpre op) hstart
  exact fun s h hp hu => (hend s h hp hu).1

theorem noLeak_of_backed (hb : db.pool.Backed db.isTenant) : NoLeak db := by
  intro rid hholds
  obtain ⟨s, h, hp, hu, rfl⟩ := holdsKv_iff.mp hholds
  have ht := hb s h hp hu
  unfold Db.isTenant Db.tenant at ht
  cases hrow : db.request? h.owner with
  | none => simp [hrow] at ht
  | some row =>
    refine ⟨row, rfl, ?_⟩
    by_contra hs
    simp [hrow, tenancy_none (Bool.eq_false_iff.mpr hs)] at ht

end Leak

/-- No leaked reservation, in every run whose reaper calls fail no request that holds KV. -/
theorem no_leaked_reservation {ops : List Op} (hops : Along Op.next SparesHolders ops Db.empty) :
    NoLeak (run Op.next ops Db.empty) := by
  have hrun := hops.invariant (fun db => NoPrefilling db ∧ db.pool.Backed db.isTenant) ?_ ?_
  · exact noLeak_of_backed hrun.2
  · intro db op hop ⟨hpre, hb⟩
    exact ⟨next_noPrefilling hpre op, next_backed hpre hop hb⟩
  · refine ⟨empty_noPrefilling, ?_⟩
    intro s h hp
    cases s <;> cases hp

/-- A model request with a KV key, claimed; its lease ends at 12. -/
def kvRunning : List Op := [modelCall "b" ["r"] (kvInput "k" 8) none 0, prepareCall (some "n") 10 1,
  .claimReadyBatch (claimArgs "w" 1 2)]

/-- With attempts left the reaper frees the KV of the request it sends back. -/
theorem no_leaked_reservation_requeued :
    NoLeak (run Op.next (kvRunning ++ [.requeueExpiredLeases { now := 20 }]) Db.empty) := by
  refine no_leaked_reservation ⟨fun _ h => h.elim, fun _ h => h.elim, fun _ h => h.elim, ?_, trivial⟩
  rintro rid ⟨row, hrow, _, hfail⟩
  have hspared : ∀ row ∈ (run Op.next kvRunning Db.empty).expiredRows 20,
      ReapArgs.fails { now := 20 } row = false := by decide +kernel
  rw [hspared row hrow] at hfail
  cases hfail

/-- Without the condition a reservation leaks: the reaper fails the request on its last attempt. -/
theorem reservation_leaked : ¬ ∀ ops : List Op, NoLeak (run Op.next ops Db.empty) := by
  intro h
  have hholds : (run Op.next (kvRunning ++ [.requeueExpiredLeases { maxAttempts := 1, now := 20 }])
      Db.empty).holdsKv "r" := .inl (by decide +kernel)
  obtain ⟨row, hrow, hs⟩ := h _ "r" hholds
  have hfailed : ((run Op.next (kvRunning ++ [.requeueExpiredLeases { maxAttempts := 1, now := 20 }])
      Db.empty).request? "r").map RequestRow.serving = some false := by decide +kernel
  rw [hrow, Option.map_some, hs] at hfailed
  cases hfailed

end Queue
end Ds4Spark
