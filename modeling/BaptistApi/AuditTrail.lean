import BaptistApi.Ownership

/-!
# The audit trail grows at its end

Whatever the roles of the application do, the cards that are there stay as they are, and a new one
says in whose name it was written. Statements of a transaction that rolls back leave nothing behind
and are not part of a run.
-/

namespace BaptistApi

open BaptistApi.RowSecurity

/-! ## Runs with reads -/

inductive Deed where
  | select (s : Session) (t : Relation)
  | event (ev : Event)

namespace Deed

def session : Deed → Session
  | select s _ => s
  | event ev => ev.session

def apply (db : Db) : Deed → Db
  -- Reading changes nothing.
  | select _ _ => db
  | event ev => ev.apply db

def run (db : Db) (deeds : List Deed) : Db := deeds.foldl apply db

theorem run_append (db : Db) (deeds deeds' : List Deed) :
    run db (deeds ++ deeds') = run (run db deeds) deeds' := List.foldl_append

end Deed

/-! ## One statement -/

/-- The card is the bound tenant's, and what `app_api` writes is in the name of the bound actor. -/
structure Attributed (s : Session) (c : AuditCard) : Prop where
  tenant : s.currentTenantId = some c.tenantId
  person : s.currentUser = .appApi →
    c.actorId = s.currentActorId ∧ ActorRole.ofText? s.currentRole = some c.actorRole

/-- Cards were added at the end, and nothing else happened to the trail. -/
def AppendsCards (s : Session) (db db' : Db) : Prop :=
  ∃ added, db'.auditCard = db.auditCard ++ added ∧ ∀ c ∈ added, Attributed s c

theorem AppendsCards.of_eq {s : Session} {db db' : Db} (h : db'.auditCard = db.auditCard) : AppendsCards s db db' := by
  refine ⟨[], ?_, fun c hc => ?_⟩
  · rw [h, List.append_nil]
  · cases hc

theorem AppendsCards.unbound {s : Session} {db db' : Db} (h : AppendsCards s db db') (hs : s.currentTenantId = none) :
    db'.auditCard = db.auditCard := by
  obtain ⟨added, hrows, hattr⟩ := h
  have hnone : added = [] := by
    refine List.eq_nil_iff_forall_not_mem.mpr fun c hc => ?_
    have ht := (hattr c hc).tenant
    rw [hs] at ht
    simp at ht
  rw [hrows, hnone, List.append_nil]

theorem cascade_auditCard (db : Db) (t : Relation) (removed : List (Row t)) :
    (cascade db t removed).auditCard = db.auditCard := by
  cases t <;> rfl

theorem after_auditCard_ne (db : Db) {t : Relation} (ht : t ≠ .auditCard) (e : Effect (Row t)) :
    (db.after t e).auditCard = db.auditCard := by
  unfold Db.after
  rw [cascade_auditCard]
  exact db.rows_set_ne (Ne.symm ht) e.rows

/-- The trigger refuses every change, also to those who have the grant and the policy for it. -/
theorem auditCard_immutable {role : DbRole} {sc : Scope} {rows : List AuditCard}
    {st : Statement (TenantDraft AuditCard) AuditCard} {e : Effect AuditCard}
    (h : Tables.auditCard.exec role sc rows st = .ok e) : e.rows = rows ++ e.added := by
  have hkept : ∀ p ∈ e.fates, p.2 = .kept := by
    intro p hp
    obtain ⟨_, _, _, -, -, -, rfl⟩ | ⟨_, _, fates, -, -, hf, rfl⟩ | ⟨_, _, fates, -, -, hf, rfl⟩ :=
      Table.exec_cases h
    · obtain ⟨r, -, rfl⟩ := List.mem_map.mp hp
      rfl
    · obtain ⟨r, -, hr⟩ := mem_of_forall₂ hf hp
      obtain rfl | ⟨_, _, _, -, -, hb, -, -⟩ := Table.updateRow_cases hr
      · rfl
      · obtain ⟨_, -, hb⟩ := bind_eq_ok.mp hb
        simp at hb
    · obtain ⟨r, -, hr⟩ := mem_of_forall₂ hf hp
      unfold Table.deleteRow at hr
      split at hr
      · obtain ⟨_, hb, -⟩ := bind_eq_ok.mp hr
        simp [Tables.auditCard] at hb
      · cases hr
        rfl
  rw [Effect.rows_of_kept hkept, Table.exec_olds h]

theorem auditCard_api_adds_nothing {sc : Scope} {rows : List AuditCard}
    {st : Statement (TenantDraft AuditCard) AuditCard} {e : Effect AuditCard}
    (h : Tables.auditCard.exec .appApi sc rows st = .ok e) : e.added = [] := by
  obtain ⟨drafts, reads, _, -, hmay, -, -⟩ | ⟨_, _, _, -, -, -, rfl⟩ | ⟨_, _, _, -, -, -, rfl⟩ :=
    Table.exec_cases h
  · have hno : Tables.auditCard.grants .appApi .insert = false := rfl
    simp [Table.mayUse, hno] at hmay
  · rfl
  · rfl

theorem statement_appends {s : Session} {db : Db} {st : Stmt} {e : Effect (Row st.table)}
    (hrole : s.currentUser ≠ .appMigrator) (h : execStatement s db st = .ok e) :
    AppendsCards s db (db.after st.table e) := by
  obtain ⟨t, body⟩ := st
  by_cases ht : t = .auditCard
  · subst ht
    have hexec := (execStatement_ok h).1
    refine ⟨e.added, ?_, fun c hc => ⟨?_, fun hapi => ?_⟩⟩
    · calc (db.after .auditCard e).auditCard = e.rows := after_rows db e
        _ = db.auditCard ++ e.added := auditCard_immutable hexec
    · obtain ⟨tenantId, hbound, hown⟩ := (@effect_within db (.statement s ⟨.auditCard, body⟩) hrole e h).added c hc
      exact hbound.trans (congrArg some hown.symm)
    · rw [hapi] at hexec
      rw [auditCard_api_adds_nothing hexec] at hc
      cases hc
  · exact AppendsCards.of_eq (after_auditCard_ne db ht e)

theorem writeCard_attributed {s : Session} {db : Db} {c : CardRequest} {id : ℤ} {card : AuditCard}
    (h : writeCard s db c id = .ok card) : Attributed s card := by
  obtain ⟨actorRole, -, hrole, -, ht, hactor, rfl, -⟩ := writeCard_ok h
  exact ⟨ht.symm, fun _ => ⟨hactor, hrole⟩⟩

theorem event_appends {db : Db} {ev : Event} (hrole : ev.session.currentUser ≠ .appMigrator) :
    AppendsCards ev.session db (ev.apply db) := by
  cases h : ev.effect db with
  | error x => rw [apply_error h]; exact AppendsCards.of_eq rfl
  | ok e =>
    rw [apply_ok h]
    cases ev with
    | statement s st => exact statement_appends hrole h
    | writeCard s c id =>
      obtain ⟨card, hc, hk⟩ := bind_eq_ok.mp h
      cases hk
      refine ⟨[card], ?_, fun c' hc' => ?_⟩
      · exact congrArg Db.auditCard (after_card db card)
      · rw [List.mem_singleton.mp hc']
        exact writeCard_attributed hc

theorem deed_appends {db : Db} {deed : Deed} (hrole : deed.session.currentUser ≠ .appMigrator) :
    AppendsCards deed.session db (deed.apply db) := by
  cases deed with
  | select s t => exact AppendsCards.of_eq rfl
  | event ev => exact event_appends hrole

/-! ## Runs -/

theorem run_prefix {db : Db} {deeds : List Deed} (hroles : ∀ deed ∈ deeds, deed.session.currentUser ≠ .appMigrator) :
    db.auditCard <+: (Deed.run db deeds).auditCard := by
  induction deeds generalizing db with
  | nil => exact List.prefix_rfl
  | cons deed deeds ih =>
    obtain ⟨added, hrows, -⟩ := @deed_appends db deed (hroles deed List.mem_cons_self)
    have hrest : (deed.apply db).auditCard <+: (Deed.run (deed.apply db) deeds).auditCard :=
      ih fun a ha => hroles a (List.mem_cons_of_mem _ ha)
    rw [hrows] at hrest
    exact (List.prefix_append db.auditCard added).trans hrest

/-- In a run: each statement adds cards of its own tenant at the end of the trail, none when no tenant
is bound; and the cards that were there at some time are there from then on, in their order. -/
structure HonestTrail (db : Db) (deeds : List Deed) : Prop where
  appends : ∀ before deed after, deeds = before ++ deed :: after →
    AppendsCards deed.session (Deed.run db before) (Deed.run db (before ++ [deed]))
  unbound : ∀ before deed after, deeds = before ++ deed :: after → deed.session.currentTenantId = none →
    (Deed.run db (before ++ [deed])).auditCard = (Deed.run db before).auditCard
  kept : ∀ before after, deeds = before ++ after →
    (Deed.run db before).auditCard <+: (Deed.run db deeds).auditCard

/-- **The audit trail is append-only and honestly attributed**, in every run of statements by
`app_api`, `app_worker` and `app_readonly`. -/
theorem audit_trail_honest {db : Db} {deeds : List Deed}
    (hroles : ∀ deed ∈ deeds, deed.session.currentUser ∈ [.appApi, .appWorker, .appReadonly]) :
    HonestTrail db deeds := by
  have hmigrator (deed : Deed) (hdeed : deed ∈ deeds) : deed.session.currentUser ≠ .appMigrator := by
    intro h
    have hin := hroles deed hdeed
    rw [h] at hin
    simp at hin
  have hstep (before after : List Deed) (deed : Deed) (hsplit : deeds = before ++ deed :: after) :
      AppendsCards deed.session (Deed.run db before) (Deed.run db (before ++ [deed])) := by
    rw [Deed.run_append]
    exact deed_appends (hmigrator deed (by simp [hsplit]))
  refine ⟨fun before deed after h => hstep before after deed h,
    fun before deed after h hs => (hstep before after deed h).unbound hs, ?_⟩
  rintro before after rfl
  rw [Deed.run_append]
  exact run_prefix fun deed hdeed => hmigrator deed (List.mem_append_right _ hdeed)

def workerCard : TenantDraft AuditCard where
  tenantId := none
  row :=
    { id := 2, tenantId := 1, locationId := some 10, actorId := none, actorLabel := "sync", actorRole := .system
      verb := .update, action := "Synced", resourceType := "location", resourceId := none
      approvalId := none, requestId := none, detail := none, simulated := false }

def workerSession : Session :=
  { currentUser := .appWorker, tenantId := some 1, actorId := none, role := "", now := noon }

/-- The user writes a card about a location and then tries to delete it, with its cards; the worker
adds one. -/
def auditDay : List Deed :=
  [.event (.writeCard (tenantContext clinicUser noon)
      { locationId := some 11, verb := "update", action := "Renamed", resourceType := "location" } 1),
    .event (.statement (tenantContext clinicUser noon)
      { table := .location, body := .delete (fun r => r.id == 11) true }),
    .event (.statement (tenantContext clinicUser noon)
      { table := .auditCard, body := .delete (fun _ => true) true }),
    .event (.statement workerSession { table := .auditCard, body := .insert [workerCard] false }),
    .select workerSession .auditCard]

theorem audit_trail_honest_day : HonestTrail (clinic .active) auditDay :=
  audit_trail_honest (by decide)

example : ((Deed.run (clinic .active) auditDay).auditCard.map (·.id),
    (Deed.run (clinic .active) auditDay).location.length) = ([1, 2], 2) := by decide +kernel

end BaptistApi
