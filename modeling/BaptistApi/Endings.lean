import BaptistApi.JwksRuns
import BaptistApi.LadderExec
import BaptistApi.Lib.Landing
import BaptistApi.Patches

/-!
# Every call ends

The INSERT of the approval is the last statement of an execution that may wait, and the first that
leaves rows behind. A preview and a PATCH write with their last statement. So calls cannot wait for
each other in a circle.
-/

namespace BaptistApi

open BaptistApi.Calendar BaptistApi.Program BaptistApi.Transactions

/-! ## The ladder -/

/-- The statements that leave uncommitted rows behind. -/
def Cmd.locks : Cmd → Prop
  | .sql (.insertApproval _) => True
  | .sql (.insertLedger _) => True
  | .sql (.updateApproval ..) => True
  | .sql (.writeCard _) => True
  | .sql (.insertPreview _) => True
  | _ => False

/-- The commands that never wait. -/
def Cmd.quiet : Cmd → Prop
  | .sql (.insertApproval _) => False
  | .sql (.insertPreview _) => False
  | _ => True

theorem runSql_writes {s : Session} {e : Env} {db : Db} {q : Sql} {v : q.Result} {ws : List Write}
    (h : runSql s e db q = .ok (v, ws)) (hws : ws ≠ []) : (Cmd.sql q).locks := by
  cases q with
  | insertApproval | insertLedger | updateApproval | writeCard | insertPreview => trivial
  | findApproval | loadPreview | selectBudget | monthSpend =>
    cases h
    exact absurd rfl hws
  | assertBudget =>
    obtain ⟨_, -, h⟩ := RowSecurity.bind_eq_ok.mp h
    cases h
    exact absurd rfl hws

theorem ladder_waitsFor : ladder.WaitsFor Cmd.locks Cmd.quiet where
  writes a e failed db c h := by
    cases c with
    | sql q =>
      change (exec a e failed db (.sql q)).writes ≠ [] at h
      unfold exec at h
      cases failed with
      | true => exact absurd rfl h
      | false =>
        cases hq : runSql a.session e db q with
        | error x => simp [hq] at h
        | ok p => exact runSql_writes hq (by simpa [hq] using h)
    | utcNow => exact absurd rfl h
    | dispatch => exact absurd rfl h
  rows a e c ws h := by
    change waits e c ws = true at h
    have hheld : ws ≠ [] := by
      rintro rfl
      unfold waits at h
      split at h <;> simp [held] at h
    refine ⟨hheld, ?_⟩
    unfold waits at h
    split at h
    · exact id
    · exact id
    · cases h

section Programs

variable {α : Type} {P : Cmd → Prop}

theorem Ladder.issues_sql {q : Sql} (h : P (.sql q)) : (Ladder.sql q).Issues P :=
  ⟨h, fun r => by cases r <;> trivial⟩

theorem Ladder.issues_one {rows : List α} : (Ladder.one rows).Issues P := by
  unfold Ladder.one
  split <;> trivial

theorem Ladder.issues_dumps {stack : Stack} {v : PyVal} : (Ladder.dumps stack v).Issues P := by
  unfold Ladder.dumps
  split <;> trivial

theorem evaluateGates_issues (hbudget : P (.sql .selectBudget)) (hspend : P (.sql .monthSpend)) (estimated : ℚ)
    (balance : Option ℚ) : (evaluateGates estimated balance).Issues P := by
  unfold evaluateGates
  refine (Ladder.issues_sql hbudget).bind fun rows => Ladder.issues_one.bind fun o => ?_
  cases o with
  | none => trivial
  | some b => exact (Ladder.issues_sql hspend).bind fun _ => trivial

theorem findExistingApproval_issues {tenantId : Uuid} {key : String} (h : P (.sql (.findApproval tenantId key))) :
    (findExistingApproval tenantId key).Issues P := by
  unfold findExistingApproval
  refine (Ladder.issues_sql h).bind fun rows => Ladder.issues_one.bind fun o => ?_
  cases o <;> trivial

theorem checkPreview_issues {r : ExecuteRequest} (hload : P (.sql (.loadPreview r.previewId r.tenantId r.operation)))
    (hclock : P .utcNow) : (checkPreview r).Issues P := by
  unfold checkPreview loadPreview
  refine ((Ladder.issues_sql hload).bind fun rows => Ladder.issues_one.bind fun o => ?_).bind fun preview => ?_
  · cases o <;> trivial
  · cases preview with
    | none => trivial
    | some p =>
      refine Prog.Issues.bind ⟨hclock, fun _ => trivial⟩ fun now => ?_
      split
      · trivial
      · split <;> trivial

theorem insertBills_issues (h : ∀ b, P (.sql (.insertLedger b))) (bs : List Bill) : (insertBills bs).Issues P := by
  induction bs with
  | nil => trivial
  | cons b bs ih => exact (Ladder.issues_sql (h b)).bind fun _ => ih

/-- What follows the INSERT of the approval waits for nobody. -/
theorem dispatched_quiet (r : ExecuteRequest) (approvalId : Uuid) :
    (do let result ← awaitDispatch r
        recordExecuted r approvalId result : Ladder ApprovalResponse).Issues Cmd.quiet := by
  refine Prog.Issues.bind ⟨trivial, fun outcome => ?_⟩ fun result => ?_
  · cases outcome with
    | error message => trivial
    | ok result => exact (insertBills_issues (fun _ => trivial) _).bind fun _ => trivial
  · unfold recordExecuted
    refine Ladder.issues_dumps.bind fun text => (Ladder.issues_sql trivial).bind fun _ => ?_
    exact (Ladder.issues_sql trivial).bind fun _ => trivial

theorem execute_locksLast (r : ExecuteRequest) : (execute r).LocksLast Cmd.locks Cmd.quiet := by
  unfold execute
  refine Prog.LocksLast.after (findExistingApproval_issues id) fun o => ?_
  cases o with
  | some existing =>
    dsimp only
    split <;> trivial
  | none =>
    refine Prog.LocksLast.after (checkPreview_issues id id) fun _ => Prog.LocksLast.after ⟨id, fun reply => ?_⟩ fun _ => ?_
    · cases reply <;> trivial
    · refine Prog.LocksLast.bind ⟨fun _ reply => ?_, fun reply => ?_⟩ fun id => dispatched_quiet r id
      · cases reply with
        | ok id => trivial
        | error e => cases e <;> trivial
      · cases reply with
        | ok id => trivial
        | error e => cases e <;> trivial

theorem createPreview_locksLast (r : PreviewRequest) : (createPreview r).LocksLast Cmd.locks Cmd.quiet := by
  unfold createPreview
  refine Prog.LocksLast.after (evaluateGates_issues id id _ _) fun gates =>
    Prog.LocksLast.after Ladder.issues_dumps fun params => Prog.LocksLast.after Ladder.issues_dumps fun units =>
      Prog.LocksLast.bind ⟨fun _ reply => ?_, fun reply => ?_⟩ fun _ => trivial
  · cases reply <;> trivial
  · cases reply <;> trivial

theorem ladder_locksLast (a : Call) : (ladder.prog a).LocksLast Cmd.locks Cmd.quiet := by
  obtain ⟨ctx, startedAt, action⟩ := a
  cases action with
  | createPreview r => exact (createPreview_locksLast r).bind fun _ => trivial
  | execute r => exact (execute_locksLast r).bind fun _ => trivial

end Programs

/-- **Calls of the ladder never block each other for good.** From every state that previews and executions
reach, whatever the schedule and whatever the world outside does, every call that has begun ends. While any is under
way, one can go on with no connection lost. -/
theorem ladder_calls_end {db : Db} {ls : List LadderLabel} {w : LadderWorld} (hrun : ladder.run { db } ls = some w) :
    Inevitable ladder.Onward World.Idle w ∧ Inevitable ladder.Unaided World.Idle w :=
  haveI : Nonempty Env := ⟨queued 0 0⟩
  ladder_waitsFor.ends ladder_locksLast hrun

/-- Two purchases of the clinic with one key: the second waits for the first. -/
def rivalCalls : List LadderLabel :=
  let buy := purchase "k" []
  [.begin buy, .begin buy] ++ (List.replicate 5 (.exec 0 (queued 30 1)) ++ List.replicate 4 (.exec 1 (queued 31 2)))

theorem rivalCalls_run : (ladder.run { db := shop } rivalCalls).isSome = true := by decide +kernel

theorem rivalCalls_end :
    let w := (ladder.run { db := shop } rivalCalls).get rivalCalls_run
    Inevitable ladder.Onward World.Idle w ∧ Inevitable ladder.Unaided World.Idle w :=
  ladder_calls_end (Option.some_get rivalCalls_run).symm

example : ((ladder.run { db := shop } rivalCalls).bind fun w => ladder.step w (.exec 1 (queued 31 2))).isNone = true := by
  decide +kernel

/-! ## Requests that patch -/

def PatchSql.locks : PatchSql → Prop
  | .selectBySlug _ => False
  | .updateLocation .. => True

theorem patches_waitsFor : patches.WaitsFor PatchSql.locks fun q => ¬ q.locks where
  writes a e failed db q h := by
    cases q with
    | updateLocation => trivial
    | selectBySlug slug =>
      cases failed with
      | true => exact absurd rfl h
      | false =>
        by_cases hslug : textStorable slug = true
        · rw [exec_selectBySlug hslug] at h
          exact absurd rfl h
        · rw [exec_selectBySlug_error hslug] at h
          exact absurd rfl h
  rows a e q rows h := by
    cases q with
    | selectBySlug => cases h
    | updateLocation id s =>
      refine ⟨?_, fun hq => hq trivial⟩
      rintro rfl
      cases h

theorem flush_locksLast (a : PatchRequest) (l : Location) :
    (a.flush l).LocksLast PatchSql.locks fun q => ¬ q.locks := by
  unfold PatchRequest.flush
  split
  · trivial
  · split
    · trivial
    · refine ⟨fun _ reply => ?_, fun reply => ?_⟩
      · cases reply with
        | error e => trivial
        | ok n => dsimp only; split <;> trivial
      · cases reply with
        | error e => trivial
        | ok n => dsimp only; split <;> trivial

theorem patches_locksLast (a : PatchRequest) : (patches.prog a).LocksLast PatchSql.locks fun q => ¬ q.locks := by
  change a.prog.LocksLast _ _
  unfold PatchRequest.prog
  split
  · refine ⟨fun h => h.elim, fun reply => ?_⟩
    cases reply with
    | error e => trivial
    | ok rows =>
      dsimp only
      split
      · trivial
      · trivial
      · exact flush_locksLast a _
  · trivial

/-- **Concurrent PATCHes never block each other for good**, nor does it take a lost connection to end one. -/
theorem patches_end {db : Db} {ls : List PatchLabel} {w : PatchWorld} (hrun : patches.run { db } ls = some w) :
    Inevitable patches.Onward World.Idle w ∧ Inevitable patches.Unaided World.Idle w :=
  patches_waitsFor.ends patches_locksLast hrun

/-- Two requests have read `north` before either has written it. -/
def bothRead : List PatchLabel :=
  let patch (status : String) : PatchRequest :=
    { ctx := clinicOperator, startedAt := noon, slug := "north", payload := { status := some (some status) } }
  [.begin (patch "paused"), .begin (patch "archived"), .exec 0 (), .exec 1 (), .exec 0 ()]

theorem bothRead_run : (patches.run { db := clinic .active } bothRead).isSome = true := by decide +kernel

theorem bothRead_end :
    let w := (patches.run { db := clinic .active } bothRead).get bothRead_run
    Inevitable patches.Onward World.Idle w ∧ Inevitable patches.Unaided World.Idle w :=
  patches_end (Option.some_get bothRead_run).symm

/-! ## Callers of the key cache -/

/-- **Every `JwksCache.get` ends**, whatever the fetches give and whoever else is cancelled. While calls wait or fetch,
one of them can go on, and none of their schedules goes on for ever. -/
theorem jwks_gets_end (ttlSeconds : ℕ) {start : ℚ} {ls : List (SingleFlight.Label ℚ HttpOutcome)}
    {w : SingleFlight.World JwksCache ℚ Jwks PyError}
    (hrun : (JwksCache.store fetchJwks ttlSeconds).run { state := {}, clock := start } ls = some w) :
    Inevitable (JwksCache.store fetchJwks ttlSeconds).Onward SingleFlight.World.Landed w ∧
      Inevitable (JwksCache.store fetchJwks ttlSeconds).Unaided SingleFlight.World.Landed w :=
  haveI : Nonempty HttpOutcome := ⟨.httpError⟩
  SingleFlight.run_lands hrun

/-- The first caller fetches, and the second one waits for it. -/
def twoCallers : List (SingleFlight.Label ℚ HttpOutcome) := [.call 0 1, .enter 0 1, .call 1 2]

theorem twoCallers_run :
    ((JwksCache.store fetchJwks 600).run { state := {}, clock := 0 } twoCallers).isSome = true := by decide +kernel

theorem twoCallers_end :
    let w := ((JwksCache.store fetchJwks 600).run { state := {}, clock := 0 } twoCallers).get twoCallers_run
    Inevitable (JwksCache.store fetchJwks 600).Onward SingleFlight.World.Landed w ∧
      Inevitable (JwksCache.store fetchJwks 600).Unaided SingleFlight.World.Landed w :=
  jwks_gets_end 600 (Option.some_get twoCallers_run).symm

end BaptistApi
