import Ds4Spark.Lib.Path
import Ds4Spark.Queue.Terminal

/-!
# Ds4Spark.Queue.Notices

The notice files. `_write_notice` writes `<root>/notices/<request_id>.json` in place, and a rollback
does not take a file back.

* `Root.noticeFile`: the file of a request id.
* `Root.transact`: a transaction with a fate for each of its actions and for the commit.
* `Truthful`: every file in `<root>/notices` carries the state its request has in the database.
* `Clean`: no failure comes after a notice of the same transaction; `notices_committed`: exactly then
  the files stay truthful.
-/

namespace Ds4Spark
namespace Queue

/-- The queue directory, and the directories there are. `__init__` makes `notices`, which holds
files only. -/
structure Root where
  path : Path.Dir
  isDir : Path.Dir → Bool
  made : isDir (path ++ ["notices".toList]) = true
  flat : ∀ name, isDir (path ++ ["notices".toList] ++ [name]) = false

/-- A file, by its directory and its name. -/
abbrev Place := Path.Dir × Path.Name

/-- A whole notice, or what a write that broke off has left. -/
inductive NoticeFile where
  | whole (n : Notice)
  | torn

structure World where
  db : Db
  files : Place → Option NoticeFile

def World.start : World := ⟨Db.empty, fun _ => none⟩

/-- How a statement, the write of a notice or a commit goes. Only the write of a notice can break
off in the middle. -/
inductive Fate where
  | ok | fails | tears
deriving DecidableEq

/-- The fate that is due: `ok` past the end of the list. -/
def dueFate (fates : List Fate) : Fate := fates.headD .ok

/-- The actions of the transaction a call begins, and the notice it writes after the commit; `none`
for a call that writes no notice. -/
def Op.transaction (db : Db) : Op → Option (List Action × Option Notice)
  | .finishRequest args =>
    if args.state.isTerminal then
      (db.running? args.requestId args.leaseId).map (fun row =>
        (finishActions args row, some (args.notice row)))
    else none
  | .retryTransportFailure args =>
    (db.running? args.requestId args.leaseId).map (fun row =>
      (retryActions args row, args.notice? row))
  | .cancel args =>
    match args.target with
    | .ok target => some (cancelActions args (db.cancelRows target), none)
    | .error _ => none
  | .requeueExpiredLeases args => some (reapActions args db, none)
  | _ => none

/-- One call, with the fates of its actions and its commit in order, and of the notice after the
commit. -/
structure Step where
  op : Op
  fates : List Fate := []
  after : Fate := .ok

namespace Root

variable (root : Root)

def notices : Path.Dir := root.path ++ ["notices".toList]

/-- `self.root / "notices" / f"\x7brequest_id\x7d.json"`, opened for writing. -/
def noticeFile (requestId : String) : Option Place :=
  Path.create root.isDir root.notices (requestId.toList ++ ".json".toList)

/-- `_write_notice`; an error leaves the files as they are then. -/
def writeNotice (fate : Fate) (n : Notice) (files : Place → Option NoticeFile) :
    Except (Place → Option NoticeFile) (Place → Option NoticeFile) :=
  match root.noticeFile n.requestId, fate with
  | none, _ => .error files
  | some _, .fails => .error files
  | some place, .tears => .error (Function.update files place (some .torn))
  | some place, .ok => .ok (Function.update files place (some (.whole n)))

def perform (fate : Fate) : Action → World → Except (Place → Option NoticeFile) World
  | .exec f, w => if fate = .ok then .ok ⟨f w.db, w.files⟩ else .error w.files
  | .notice n, w => (root.writeNotice fate n w.files).map (fun files => ⟨w.db, files⟩)

/-- `with conn`: the actions up to the first that fails, then the commit. -/
def transact : List Action → List Fate → World → Except (Place → Option NoticeFile) World
  | [], fates, w => if dueFate fates = .ok then .ok w else .error w.files
  | a :: acts, fates, w => (root.perform (dueFate fates) a w).bind (transact acts fates.tail)

/-- The notice after the commit; an error raises, but takes nothing back. -/
def announce (fate : Fate) (n : Option Notice) (files : Place → Option NoticeFile) :
    Place → Option NoticeFile :=
  match n with
  | none => files
  | some n =>
    match root.writeNotice fate n files with
    | .ok files => files
    | .error files => files

def next (s : Step) (w : World) : World :=
  match s.op.transaction w.db with
  | none => { w with db := s.op.next w.db }
  | some (acts, after) =>
    match root.transact acts s.fates w with
    | .ok w' => { w' with files := root.announce s.after after w'.files }
    | .error files => { w with files := files }


/-! ## Faults -/

/-- An action succeeds; a notice needs a file that can be opened. -/
def passes (fate : Fate) : Action → Bool
  | .exec _ => fate = .ok
  | .notice n => fate = .ok ∧ (root.noticeFile n.requestId).isSome

/-- What an action leaves in a file. -/
def touched (fate : Fate) : Action → List (Place × NoticeFile)
  | .exec _ => []
  | .notice n =>
    match root.noticeFile n.requestId, fate with
    | some place, .ok => [(place, .whole n)]
    | some place, .tears => [(place, .torn)]
    | _, _ => []

/-- An action or the commit fails. -/
def breaks : List Action → List Fate → Bool
  | [], fates => dueFate fates ≠ .ok
  | a :: acts, fates => !root.passes (dueFate fates) a || breaks acts fates.tail

/-- What a transaction leaves in files up to its first failure. -/
def written : List Action → List Fate → List (Place × NoticeFile)
  | [], _ => []
  | a :: acts, fates => root.touched (dueFate fates) a ++
      if root.passes (dueFate fates) a then written acts fates.tail else []

end Root

/-- The files after some writes. -/
def put (ws : List (Place × NoticeFile)) (files : Place → Option NoticeFile) :
    Place → Option NoticeFile :=
  ws.foldl (fun files w => Function.update files w.1 (some w.2)) files

theorem put_append (ws vs : List (Place × NoticeFile)) (files : Place → Option NoticeFile) :
    put (ws ++ vs) files = put vs (put ws files) := List.foldl_append

/-- The last write of a file counts. -/
theorem put_cases (ws : List (Place × NoticeFile)) (files : Place → Option NoticeFile)
    (place : Place) :
    ((∀ w ∈ ws, w.1 ≠ place) ∧ put ws files place = files place) ∨
      ∃ f, (place, f) ∈ ws ∧ put ws files place = some f := by
  induction ws generalizing files with
  | nil => exact .inl ⟨by simp, rfl⟩
  | cons first ws ih =>
    rcases ih (Function.update files first.1 (some first.2)) with ⟨hnone, hput⟩ | ⟨f, hf, hput⟩
    · by_cases he : first.1 = place
      · refine .inr ⟨first.2, by rw [← he]; simp, ?_⟩
        rw [← he, Function.update_self] at hput
        exact he ▸ hput
      · rw [Function.update_of_ne (Ne.symm he)] at hput
        refine .inl ⟨fun w hw => ?_, hput⟩
        rcases List.mem_cons.mp hw with rfl | hw
        · exact he
        · exact hnone w hw
    · exact .inr ⟨f, by simp [hf], hput⟩

section Faults

variable {root : Root} {fate : Fate} {a : Action} {acts : List Action} {fates : List Fate}
  {w : World} {place : Place} {f : NoticeFile}

namespace Root

theorem perform_eq : root.perform fate a w =
    if root.passes fate a then .ok ⟨a.apply w.db, put (root.touched fate a) w.files⟩
    else .error (put (root.touched fate a) w.files) := by
  cases a with
  | exec g => simp only [perform, passes, decide_eq_true_eq]; rfl
  | notice n =>
    cases hown : root.noticeFile n.requestId <;> cases fate <;>
      simp [perform, writeNotice, passes, touched, hown, put, Except.map, Action.apply]

/-- A transaction in one piece: it commits unless it breaks, and leaves what it has written. -/
theorem transact_eq : root.transact acts fates w =
    if root.breaks acts fates then .error (put (root.written acts fates) w.files)
    else .ok ⟨execAll acts w.db, put (root.written acts fates) w.files⟩ := by
  induction acts generalizing fates w with
  | nil =>
    unfold transact breaks written
    cases dueFate fates <;> rfl
  | cons a acts ih =>
    unfold transact breaks written
    rw [perform_eq]
    cases hp : root.passes (dueFate fates) a with
    | true =>
      simp only [if_true, Except.bind, ih, Bool.not_true, Bool.false_or, put_append]
      rfl
    | false =>
      simp only [Bool.false_eq_true, if_false, Bool.not_false, Bool.true_or, if_true, List.append_nil]
      rfl

theorem touched_cases (hf : (place, f) ∈ root.touched fate a) :
    f = .torn ∧ root.passes fate a = false ∨ ∃ n, a = .notice n ∧ f = .whole n := by
  cases a with
  | exec g => simp [touched] at hf
  | notice n =>
    cases hown : root.noticeFile n.requestId with
    | none => simp [touched, hown] at hf
    | some own =>
      cases fate with
      | ok =>
        simp only [touched, hown, List.mem_singleton, Prod.mk.injEq] at hf
        exact .inr ⟨n, rfl, hf.2⟩
      | fails => simp [touched, hown] at hf
      | tears =>
        simp only [touched, hown, List.mem_singleton, Prod.mk.injEq] at hf
        exact .inl ⟨hf.2, by simp [passes]⟩

theorem torn_of_touched {n : Notice} (hf : (place, .torn) ∈ root.touched fate (.notice n)) :
    fate = .tears ∧ root.noticeFile n.requestId = some place := by
  cases hown : root.noticeFile n.requestId <;> cases fate <;>
    simp_all [touched]

/-- What a transaction writes is a notice of its own, or a torn file when it breaks. -/
theorem written_cases (hf : (place, f) ∈ root.written acts fates) :
    f = .torn ∧ root.breaks acts fates = true ∨ ∃ n, .notice n ∈ acts ∧ f = .whole n := by
  induction acts generalizing fates with
  | nil => simp [written] at hf
  | cons a acts ih =>
    rw [written, List.mem_append] at hf
    rcases hf with hf | hf
    · rcases touched_cases hf with ⟨rfl, hp⟩ | ⟨n, rfl, rfl⟩
      · exact .inl ⟨rfl, by simp [breaks, hp]⟩
      · exact .inr ⟨n, by simp, rfl⟩
    · split at hf
      · rcases ih hf with ⟨rfl, hb⟩ | ⟨n, hn, rfl⟩
        · exact .inl ⟨rfl, by simp [breaks, hb]⟩
        · exact .inr ⟨n, by simp [hn], rfl⟩
      · simp at hf

end Root

end Faults

/-! ## What the operations announce -/

/-- A whole notice with the state its request has ended in. -/
def Agrees (db : Db) (f : NoticeFile) : Prop :=
  ∃ n row, f = .whole n ∧ db.request? n.requestId = some row ∧ row.state = n.state ∧
    row.state.isTerminal = true

section Operations

variable {op : Op} {db : Db} {acts : List Action} {after : Option Notice} {n : Notice}

theorem Agrees.of_row {row : RequestRow} (hrow : db.request? n.requestId = some row)
    (hs : row.state = n.state) (ht : n.state.isTerminal = true) : Agrees db (.whole n) :=
  ⟨n, row, rfl, hrow, hs, by rw [hs, ht]⟩

theorem not_agrees_torn : ¬ Agrees db .torn := by
  rintro ⟨n, row, hn, _⟩
  cases hn

theorem not_agrees_due {row : RequestRow} (hrow : db.request? n.requestId = some row)
    (hs : row.state.isTerminal = false) : ¬ Agrees db (.whole n) := by
  rintro ⟨m, now, hm, hnow, _, ht⟩
  cases hm
  rw [hrow] at hnow
  cases hnow
  rw [hs] at ht
  cases ht

theorem transaction_next (h : op.transaction db = some (acts, after)) :
    op.next db = execAll acts db := by
  cases op with
  | finishRequest args =>
    simp only [Op.transaction] at h
    split at h
    · rename_i ht
      obtain ⟨row, hrow, he⟩ := Option.map_eq_some_iff.mp h
      cases he
      simp [Op.next, finishRequest, ht, hrow, committed]
    · cases h
  | retryTransportFailure args =>
    obtain ⟨row, hrow, he⟩ := Option.map_eq_some_iff.mp h
    cases he
    simp [Op.next, retryTransportFailure, hrow]
  | cancel args =>
    simp only [Op.transaction] at h
    split at h
    · rename_i target htarget
      cases h
      simp [Op.next, Queue.cancel, htarget, committed, bind, Except.bind]
    · cases h
  | requeueExpiredLeases args =>
    cases h
    rfl
  | _ => cases h

theorem cancelTurn_notice {args : CancelArgs} {row : RequestRow} (h : .notice n ∈ cancelTurn args row) :
    row.state.isTerminal = false ∧ n.requestId = row.requestId ∧
      (args.turned row row).state = n.state ∧ n.state = .cancelled := by
  have hs : row.state.isTerminal = false := by
    by_contra ht
    rw [Bool.not_eq_false] at ht
    simp [cancelTurn, CancelArgs.choice, ht] at h
  cases hc : args.choice row with
  | skip => simp [cancelTurn, hc] at h
  | mark => simp [cancelTurn, hc] at h
  | force | cancel =>
    simp only [cancelTurn, hc, cancelRowActions, List.mem_cons, reduceCtorEq, false_or,
      List.not_mem_nil, or_false, Action.notice.injEq] at h
    subst h
    refine ⟨hs, rfl, ?_, rfl⟩
    simp only [CancelArgs.turned, hc]
    rfl

theorem reapTurn_notice {args : ReapArgs} {row : RequestRow} (h : .notice n ∈ reapTurn args row) :
    n.requestId = row.requestId ∧ (args.turned row).state = n.state ∧ n.state = .failed := by
  cases hf : args.fails row with
  | false => simp [reapTurn, reapUpdate, hf] at h
  | true =>
    simp only [reapTurn, reapUpdate, hf, if_true, List.cons_append, List.nil_append, List.mem_cons,
      reduceCtorEq, false_or, List.not_mem_nil, or_false, Action.notice.injEq] at h
    subst h
    refine ⟨rfl, ?_, rfl⟩
    simp only [ReapArgs.turned, hf, if_true]
    rfl

/-- A notice of a transaction is about a request that has not ended before it and has after it. -/
theorem transaction_notice (h : op.transaction db = some (acts, after)) (hn : .notice n ∈ acts) :
    (∃ row, db.request? n.requestId = some row ∧ row.state.isTerminal = false) ∧
      Agrees (op.next db) (.whole n) := by
  rw [transaction_next h]
  cases op with
  | finishRequest args =>
    simp only [Op.transaction] at h
    split at h
    · obtain ⟨row, hrow, he⟩ := Option.map_eq_some_iff.mp h
      cases he
      simp [finishActions] at hn
    · cases h
  | retryTransportFailure args =>
    obtain ⟨row, hrun, he⟩ := Option.map_eq_some_iff.mp h
    cases he
    obtain ⟨hrow, hs, _⟩ := running?_eq_some.mp hrun
    cases ho : args.outcome row with
    | cancelled =>
      have hrow' := congrFun (@retry_request? db row args row hrun) args.requestId
      rw [Function.update_self] at hrow'
      simp only [retryActions, ho, retryCancelledActions, List.mem_cons, reduceCtorEq, false_or,
        List.not_mem_nil, or_false, Action.notice.injEq] at hn
      subst hn
      refine ⟨⟨row, hrow, by rw [hs]; rfl⟩, .of_row hrow' ?_ rfl⟩
      simp only [RetryArgs.settled, ho]
      rfl
    | requeued => simp [retryActions, ho, retryRequeuedActions] at hn
    | failed | lost => simp [retryActions, ho, retryFailedActions] at hn
  | cancel args =>
    simp only [Op.transaction] at h
    split at h
    · rename_i target htarget
      cases h
      simp only [cancelActions, List.mem_append, List.mem_flatMap, List.mem_singleton, reduceCtorEq,
        or_false] at hn
      obtain ⟨row, hmem, hn⟩ := hn
      obtain ⟨hs, hid, hturned, hstate⟩ := cancelTurn_notice hn
      have hrow := (cancelRows_current db target).stored row hmem
      have hrow' := @cancelled_own db row args target hmem
      rw [← hid] at hrow hrow'
      exact ⟨⟨row, hrow, hs⟩, .of_row hrow' hturned (by rw [hstate]; rfl)⟩
    · cases h
  | requeueExpiredLeases args =>
    cases h
    simp only [reapActions, List.mem_cons, reduceCtorEq, false_or, List.mem_flatMap] at hn
    obtain ⟨row, hmem, hn⟩ := hn
    obtain ⟨hid, hturned, hstate⟩ := reapTurn_notice hn
    have hrow := (expiredRows_current db args.now).stored row hmem
    have hrow' := @reaped_own db row args hmem
    rw [← hid] at hrow hrow'
    obtain ⟨_, hs, _⟩ := mem_expiredRows.mp hmem
    refine ⟨⟨row, hrow, ?_⟩, .of_row hrow' hturned (by rw [hstate]; rfl)⟩
    rcases hs with hs | hs <;> rw [hs] <;> rfl
  | _ => cases h

/-- The notice after the commit is about a request the transaction has ended. -/
theorem transaction_after (h : op.transaction db = some (acts, some n)) :
    Agrees (op.next db) (.whole n) := by
  rw [transaction_next h]
  cases op with
  | finishRequest args =>
    simp only [Op.transaction] at h
    split at h
    · rename_i ht
      obtain ⟨row, hrun, he⟩ := Option.map_eq_some_iff.mp h
      cases he
      have hrow' := congrFun (@finish_request? db row args row hrun) args.requestId
      rw [Function.update_self] at hrow'
      refine .of_row hrow' rfl ?_
      change (args.final row).isTerminal = true
      unfold FinishArgs.final
      split
      · rfl
      · exact ht
    · cases h
  | retryTransportFailure args =>
    obtain ⟨row, hrun, he⟩ := Option.map_eq_some_iff.mp h
    have hrow' := congrFun (@retry_request? db row args row hrun) args.requestId
    rw [Function.update_self] at hrow'
    cases ho : args.outcome row with
    | failed =>
      simp only [RetryArgs.notice?, ho, if_true, Prod.mk.injEq, Option.some.injEq] at he
      obtain ⟨rfl, rfl⟩ := he
      refine .of_row hrow' ?_ rfl
      simp only [RetryArgs.settled, ho]
      rfl
    | cancelled | requeued | lost => simp [RetryArgs.notice?, ho] at he
  | cancel args =>
    simp only [Op.transaction] at h
    split at h <;> cases h
  | requeueExpiredLeases args => cases h
  | _ => cases h

theorem Agrees.next {f : NoticeFile} (hpre : NoPrefilling db) (h : Agrees db f) (op : Op) :
    Agrees (op.next db) f := by
  obtain ⟨n, row, rfl, hrow, hs, ht⟩ := h
  exact ⟨n, row, rfl, next_terminal hpre hrow ht, hs, ht⟩

end Operations

/-! ## Runs -/

namespace Root

variable (root : Root)

/-- Every file in `<root>/notices` carries the state its request has ended in. -/
def Truthful (w : World) : Prop :=
  ∀ name f, w.files (root.notices, name) = some f → Agrees w.db f

/-- A transaction that breaks has written nothing into `<root>/notices` by then, and the notice after
a commit does not break off in the middle. -/
def Clean (w : World) (s : Step) : Prop :=
  ∀ acts after, s.op.transaction w.db = some (acts, after) →
    if root.breaks acts s.fates then ∀ v ∈ root.written acts s.fates, v.1.1 ≠ root.notices
    else ∀ n, after = some n → s.after = .tears →
      ∀ place, root.noticeFile n.requestId = some place → place.1 ≠ root.notices

variable {root} {s : Step} {w : World}

theorem announce_eq (fate : Fate) (n : Notice) (files : Place → Option NoticeFile) :
    root.announce fate (some n) files = put (root.touched fate (.notice n)) files := by
  cases hown : root.noticeFile n.requestId <;> cases fate <;>
    simp [announce, writeNotice, touched, hown, put]

theorem next_eq {acts : List Action} {after : Option Notice}
    (h : s.op.transaction w.db = some (acts, after)) : root.next s w =
      if root.breaks acts s.fates then ⟨w.db, put (root.written acts s.fates) w.files⟩
      else ⟨s.op.next w.db,
        root.announce s.after after (put (root.written acts s.fates) w.files)⟩ := by
  simp only [Root.next, h, transact_eq, transaction_next h]
  cases root.breaks acts s.fates <;> rfl

theorem next_nopre (h : NoPrefilling w.db) : NoPrefilling (root.next s w).db := by
  cases htx : s.op.transaction w.db with
  | none =>
    simp only [Root.next, htx]
    exact next_noPrefilling h s.op
  | some tx =>
    rw [next_eq htx]
    split
    · exact h
    · exact next_noPrefilling h s.op

/-- What a transaction that breaks has written is false: it is rolled back. -/
theorem broken_truthful {acts : List Action} {after : Option Notice}
    (htx : s.op.transaction w.db = some (acts, after)) (h : root.Truthful w) :
    root.Truthful ⟨w.db, put (root.written acts s.fates) w.files⟩ ↔
      ∀ v ∈ root.written acts s.fates, v.1.1 ≠ root.notices := by
  constructor
  · intro ht v hv he
    have hplace : (root.notices, v.1.2) = v.1 := by rw [← he]
    rcases put_cases (root.written acts s.fates) w.files v.1 with ⟨hnone, _⟩ | ⟨f, hf, hput⟩
    · exact hnone v hv rfl
    · have hc : Agrees w.db f := ht v.1.2 f (by rw [hplace]; exact hput)
      rcases written_cases hf with ⟨rfl, _⟩ | ⟨n, hn, rfl⟩
      · exact not_agrees_torn hc
      · obtain ⟨row, hrow, hs⟩ := (transaction_notice htx hn).1
        exact not_agrees_due hrow hs hc
  · intro hall name f hf
    rcases put_cases (root.written acts s.fates) w.files (root.notices, name) with
      ⟨_, hput⟩ | ⟨f', hf', _⟩
    · exact h name f (hput ▸ hf)
    · exact (hall _ hf' rfl).elim

/-- What a transaction that commits has written is true. -/
theorem committed_truthful {acts : List Action} {after : Option Notice} (hpre : NoPrefilling w.db)
    (htx : s.op.transaction w.db = some (acts, after)) (hb : root.breaks acts s.fates = false)
    (h : root.Truthful w) :
    root.Truthful ⟨s.op.next w.db, put (root.written acts s.fates) w.files⟩ := by
  intro name f hf
  rcases put_cases (root.written acts s.fates) w.files (root.notices, name) with
    ⟨_, hput⟩ | ⟨f', hf', hput⟩
  · exact (h name f (hput ▸ hf)).next hpre s.op
  · have he : f' = f := Option.some.inj (hput.symm.trans hf)
    subst he
    rcases written_cases hf' with ⟨_, hbreaks⟩ | ⟨n, hn, rfl⟩
    · rw [hb] at hbreaks
      cases hbreaks
    · exact (transaction_notice htx hn).2

/-- A step from truthful files leaves truthful files exactly when it is clean. -/
theorem next_truthful (hpre : NoPrefilling w.db) (h : root.Truthful w) :
    root.Truthful (root.next s w) ↔ root.Clean w s := by
  cases htx : s.op.transaction w.db with
  | none =>
    simp only [Root.next, Clean, htx]
    refine ⟨fun _ acts after he => (nomatch he), fun _ name f hf => ?_⟩
    exact (h name f hf).next hpre s.op
  | some tx =>
    obtain ⟨acts, after⟩ := tx
    have hclean : root.Clean w s ↔
        if root.breaks acts s.fates then ∀ v ∈ root.written acts s.fates, v.1.1 ≠ root.notices
        else ∀ n, after = some n → s.after = .tears →
          ∀ place, root.noticeFile n.requestId = some place → place.1 ≠ root.notices := by
      constructor
      · intro hc
        exact hc acts after htx
      · intro hc acts' after' he
        rw [htx] at he
        cases he
        exact hc
    rw [next_eq htx, hclean]
    cases hb : root.breaks acts s.fates with
    | true => exact broken_truthful htx h
    | false =>
      have hcommitted := committed_truthful hpre htx hb h
      simp only [Bool.false_eq_true, if_false]
      cases after with
      | none => exact ⟨fun _ n hn => (nomatch hn), fun _ => hcommitted⟩
      | some n =>
        rw [announce_eq]
        constructor
        · rintro ht _ ⟨rfl⟩ htears place hplace he
          have htouched : root.touched s.after (.notice n) = [(place, .torn)] := by
            simp only [touched, hplace, htears]
          have hnotices : (root.notices, place.2) = place := by rw [← he]
          refine not_agrees_torn (ht place.2 .torn ?_)
          rw [htouched, hnotices]
          exact Function.update_self _ _ _
        · intro hc name f hf
          rcases put_cases (root.touched s.after (.notice n))
            (put (root.written acts s.fates) w.files) (root.notices, name) with
            ⟨_, hput⟩ | ⟨f', hf', hput⟩
          · exact hcommitted name f (hput.symm.trans hf)
          · have he : f' = f := Option.some.inj (hput.symm.trans hf)
            subst he
            rcases touched_cases hf' with ⟨rfl, _⟩ | ⟨m, hm, rfl⟩
            · obtain ⟨htears, hplace⟩ := torn_of_touched hf'
              exact (hc n rfl htears _ hplace rfl).elim
            · cases hm
              exact transaction_after htx

end Root

/-- In every run of the queue's calls, whatever fails in them, the notice files stay truthful up to
the end exactly when every call is clean. -/
theorem notices_committed (root : Root) (steps : List Step) :
    (∀ before, before <+: steps → root.Truthful (run root.next before World.start)) ↔
      Along root.next root.Clean steps World.start := by
  refine along_iff_forall_prefix (fun w => NoPrefilling w.db) root.Truthful ?_ ?_ ?_ ?_
  · exact fun w s h => Root.next_nopre h
  · exact fun w s hpre h => Root.next_truthful hpre h
  · exact empty_noPrefilling
  · intro name f hf
    cases hf

/-- The queue directory `/q`. -/
def sampleRoot : Root where
  path := ["q".toList]
  isDir := fun dir => dir = [] ∨ dir = ["q".toList] ∨ dir = ["q".toList, "notices".toList]
  made := by decide
  flat := by simp

/-- A batch of two, `r` and `s`, and a `cancel` of the batch that fails to write the second notice. -/
def brokenCancel : List Step := [
  ⟨cpuCall ["r", "s"] 0, [], .ok⟩,
  ⟨.cancel { batchId := some "cpu-b", now := 1 }, List.replicate 9 .ok ++ [.fails], .ok⟩]

/-- Without the condition it fails: the cancellation is rolled back, and the notice of `r` stays. -/
theorem notice_uncommitted :
    ¬ ∀ steps, sampleRoot.Truthful (run sampleRoot.next steps World.start) := by
  intro h
  have hstate : ((run sampleRoot.next brokenCancel World.start).db.request? "r").map
      RequestRow.state = some .ready := by decide +kernel
  have hfile : ((run sampleRoot.next brokenCancel World.start).files
      (sampleRoot.notices, "r.json".toList)).map
        (fun f => match f with | .whole n => (n.requestId, n.state) | .torn => ("", .queued)) =
      some ("r", .cancelled) := by decide +kernel
  obtain ⟨f, hf, hn⟩ := Option.map_eq_some_iff.mp hfile
  obtain ⟨n, row, rfl, hrow, _, ht⟩ := h brokenCancel _ f hf
  have hid : n.requestId = "r" := congrArg Prod.fst hn
  rw [hid] at hrow
  rw [hrow, Option.map_some, Option.some.injEq] at hstate
  rw [hstate] at ht
  cases ht

end Queue
end Ds4Spark
