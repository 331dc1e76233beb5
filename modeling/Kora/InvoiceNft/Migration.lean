import Kora.InvoiceNft.Spec
import Kora.System

set_option autoImplicit false

/-!
# The migration to schema version 2

`migrate` reads every record as version 1. Such a read traps on a record that is in the current
schema already, although the comment in the loop has these records skipped.

* `Migrated`: what the migration should leave behind;
* `migrateRecords_iff`: the loop succeeds where it meets no current record;
* **`migrates_iff`**: the migration is right exactly when there is no current record to meet.
-/

namespace Kora.InvoiceNft

open Exec Run

/-! ## Statement -/

/-- The record has every field of the version 1 invoice, and no notes. -/
structure Backfilled (old : InvoiceV1) (new : Invoice) : Prop where
  id : new.id = old.id
  sme : new.sme = old.sme
  debtorHash : new.debtorHash = old.debtorHash
  amount : new.amount = old.amount
  currency : new.currency = old.currency
  dueDate : new.dueDate = old.dueDate
  ipfsCid : new.ipfsCid = old.ipfsCid
  riskScore : new.riskScore = old.riskScore
  riskTier : new.riskTier = old.riskTier
  status : new.status = old.status
  createdAt : new.createdAt = old.createdAt
  fundedAt : new.fundedAt = old.fundedAt
  repaidAt : new.repaidAt = old.repaidAt
  notes : new.notes = none

/-- The migrated storage: version 1 records below the next number are backfilled, current records
and gaps stay. -/
structure Migrated (S T : Storage) : Prop where
  version : T.migrationVersion = some 2
  backfilled : ∀ i old, 1 ≤ i → i < S.nextId.getD 1 → S.invoice i = some (.v1 old) →
    ∃ new, T.invoice i = some (.current new) ∧ Backfilled old new
  current : ∀ i inv, S.invoice i = some (.current inv) → T.invoice i = some (.current inv)
  gaps : ∀ i, S.invoice i = none → T.invoice i = none

/-- The migration by `admin` succeeds with the migrated storage, and a second one changes
nothing. -/
def Migrates (env : Env) (admin : Address) (s : State) : Prop :=
  ∃ t, migrate admin env s = .ok () t ∧ Migrated s.own t.own ∧ migrate admin env t = .ok () t

/-! ## The loop -/

/-- A record in the current schema. -/
def InvoiceRecord.upgraded : InvoiceRecord → InvoiceRecord
  | .v1 old => .current old.upgrade
  | .current inv => .current inv

/-- The storage with the records of `ids` in the current schema. -/
def Storage.upgraded (S : Storage) (ids : List ℕ) : Storage :=
  { S with invoice := fun i =>
      if i ∈ ids then (S.invoice i).map InvoiceRecord.upgraded else S.invoice i }

/-- No record of `ids` is in the current schema. -/
def Storage.AllV1 (S : Storage) (ids : List ℕ) : Prop :=
  ∀ i ∈ ids, ∀ inv, S.invoice i ≠ some (.current inv)

section Loop

variable {env : Env} {s t : State} {u : Unit} {id : ℕ} {ids : List ℕ}

@[simp] theorem Storage.upgraded_nil (S : Storage) : S.upgraded [] = S := by
  simp [Storage.upgraded]

theorem Storage.upgraded_cons (S : Storage) (hid : id ∉ ids) :
    (S.upgraded [id]).upgraded ids = S.upgraded (id :: ids) := by
  unfold Storage.upgraded
  congr 1
  funext i
  by_cases hi : i = id
  · subst hi
    simp [hid]
  · simp [hi]

theorem Storage.upgraded_singleton (S : Storage) (id : ℕ) : S.upgraded [id] = { S with
    invoice := Function.update S.invoice id ((S.invoice id).map InvoiceRecord.upgraded) } := by
  have hinvoice : (fun i => if i ∈ [id] then (S.invoice i).map InvoiceRecord.upgraded
      else S.invoice i) =
      Function.update S.invoice id ((S.invoice id).map InvoiceRecord.upgraded) := by
    funext i
    by_cases hi : i = id
    · subst hi
      simp
    · simp [hi]
  rw [Storage.upgraded, hinvoice]

theorem migrateRecord_iff : migrateRecord id env s = .ok u t ↔
    (∀ inv, s.own.invoice id ≠ some (.current inv)) ∧
      { s with own := s.own.upgraded [id] } = t := by
  rw [migrateRecord, gets_run, Storage.upgraded_singleton]
  cases hr : s.own.invoice id with
  | none =>
    have hsame : Function.update s.own.invoice id none = s.own.invoice :=
      Function.update_eq_self_iff.mpr hr.symm
    simp [hsame]
  | some r =>
    cases r with
    | v1 old =>
      simp only [putInvoice, modifyOwn, modify_ok]
      simp [InvoiceRecord.upgraded]
    | current inv => simp

/-- **The loop** brings the records to the current schema; a record that is there already stops
it. -/
theorem migrateRecords_iff (hids : ids.Nodup) : migrateRecords ids env s = .ok u t ↔
    s.own.AllV1 ids ∧ { s with own := s.own.upgraded ids } = t := by
  induction ids generalizing s with
  | nil => simp [migrateRecords, Storage.AllV1]
  | cons id ids ih =>
    obtain ⟨hid, hids⟩ := List.nodup_cons.mp hids
    simp only [migrateRecords, bind_ok, migrateRecord_iff, ih hids]
    -- the first round leaves the other records alone
    have hrest : (s.own.upgraded [id]).AllV1 ids ↔ s.own.AllV1 ids := by
      refine forall₂_congr fun i hi => ?_
      have hne : i ≠ id := fun h => hid (h ▸ hi)
      simp [Storage.upgraded, hne]
    constructor
    · rintro ⟨_, _, ⟨hhead, rfl⟩, htail, rfl⟩
      refine ⟨List.forall_mem_cons.mpr ⟨hhead, hrest.mp htail⟩, ?_⟩
      rw [← Storage.upgraded_cons _ hid]
    · rintro ⟨hall, rfl⟩
      obtain ⟨hhead, htail⟩ := List.forall_mem_cons.mp hall
      refine ⟨(), _, ⟨hhead, rfl⟩, hrest.mpr htail, ?_⟩
      rw [← Storage.upgraded_cons _ hid]

end Loop

/-! ## The migration -/

section Migration

variable {env : Env} {admin : Address} {s t : State} {u : Unit}

/-- The records that the loop reads. -/
def Storage.numbered (S : Storage) : List ℕ := List.range' 1 (S.nextId.getD 1 - 1)

theorem Storage.mem_numbered {S : Storage} {i : ℕ} :
    i ∈ S.numbered ↔ 1 ≤ i ∧ i < S.nextId.getD 1 := by
  rw [numbered, List.mem_range'_1]
  omega

theorem migrate_iff (ha : env.Authenticates admin) (hadmin : s.own.admin = some admin)
    (hversion : s.own.migrationVersion.getD 0 < 2) : migrate admin env s = .ok u t ↔
      s.own.AllV1 s.own.numbered ∧ { s with own :=
        { s.own.upgraded s.own.numbered with migrationVersion := some 2 } } = t := by
  have hnodup : (List.range' 1 (s.own.nextId.getD 1 - 1)).Nodup := List.nodup_range'
  simp only [migrate, requireAuth_seq_ok, requireAdmin_seq_ok, gets_run, ite_run, modifyOwn,
    modify_run, if_pos hversion]
  rw [and_iff_right ha, and_iff_right hadmin]
  split_ifs with hzero
  · -- version 1 is written before the loop, which does not read it
    simp only [bind_ok, modify_ok]
    constructor
    · rintro ⟨_, _, hloop, rfl⟩
      obtain ⟨hall, rfl⟩ := (migrateRecords_iff hnodup).mp hloop
      exact ⟨hall, rfl⟩
    · rintro ⟨hall, rfl⟩
      exact ⟨(), _, (migrateRecords_iff hnodup).mpr ⟨hall, rfl⟩, rfl⟩
  · simp only [bind_ok, modify_ok]
    constructor
    · rintro ⟨_, _, hloop, rfl⟩
      obtain ⟨hall, rfl⟩ := (migrateRecords_iff hnodup).mp hloop
      exact ⟨hall, rfl⟩
    · rintro ⟨hall, rfl⟩
      exact ⟨(), _, (migrateRecords_iff hnodup).mpr ⟨hall, rfl⟩, rfl⟩

/-- **Once on version 2, the migration changes nothing.** -/
theorem migrate_again (ha : env.Authenticates admin) (hadmin : s.own.admin = some admin)
    (hversion : s.own.migrationVersion = some 2) : migrate admin env s = .ok () s := by
  simp only [migrate, requireAuth_seq_ok, requireAdmin_seq_ok, gets_run, ite_run, hversion]
  exact ⟨ha, hadmin, rfl⟩

/-- The upgraded form has every field of the old one. -/
theorem InvoiceV1.backfilled_upgrade (old : InvoiceV1) : Backfilled old old.upgrade :=
  ⟨rfl, rfl, rfl, rfl, rfl, rfl, rfl, rfl, rfl, rfl, rfl, rfl, rfl, rfl⟩

theorem Storage.migrated (S : Storage) :
    Migrated S { S.upgraded S.numbered with migrationVersion := some 2 } where
  version := rfl
  backfilled i old hpos hlt hi := by
    refine ⟨old.upgrade, ?_, old.backfilled_upgrade⟩
    simp [Storage.upgraded, Storage.mem_numbered.mpr ⟨hpos, hlt⟩, hi, InvoiceRecord.upgraded]
  current i inv hi := by
    simp [Storage.upgraded, hi, InvoiceRecord.upgraded]
  gaps i hi := by
    simp [Storage.upgraded, hi]

/-- **The migration is right exactly when no record is in the current schema yet**, among the
numbers handed out. -/
theorem migrates_iff (ha : env.Authenticates admin) (hadmin : s.own.admin = some admin)
    (hversion : s.own.migrationVersion.getD 0 < 2) : Migrates env admin s ↔
      ∀ i, 1 ≤ i → i < s.own.nextId.getD 1 → ∀ inv, s.own.invoice i ≠ some (.current inv) := by
  have hall : s.own.AllV1 s.own.numbered ↔ ∀ i, 1 ≤ i → i < s.own.nextId.getD 1 →
      ∀ inv, s.own.invoice i ≠ some (.current inv) := by
    simp only [Storage.AllV1, Storage.mem_numbered, and_imp]
  rw [← hall]
  constructor
  · rintro ⟨t, ht, -, -⟩
    exact ((migrate_iff ha hadmin hversion).mp ht).1
  · intro hv1
    refine ⟨_, (migrate_iff ha hadmin hversion).mpr ⟨hv1, rfl⟩, s.own.migrated, ?_⟩
    exact migrate_again ha (by exact hadmin) rfl

end Migration

/-! ## Samples -/

/-- A version 1 invoice. -/
def sampleV1 : InvoiceV1 where
  id := 1
  sme := 2
  debtorHash := [1]
  amount := 10_000
  currency := "USDC"
  dueDate := 1000
  ipfsCid := "cid"
  riskScore := 50
  riskTier := RiskTier.fromScore 50
  status := .created
  createdAt := 0
  fundedAt := none
  repaidAt := none

/-- Invoice `1` was written in version 1, and invoice `2` withdrawn. -/
def sampleOld : State where
  own := { admin := some 1, nextId := some 3, migrationVersion := some 1, invoice := fun i =>
    if i = 1 then some (.v1 sampleV1) else none }
  accessControl := {}
  riskRegistry := {}

theorem migrates_sample : Migrates ⟨sample, 0, none, [1]⟩ 1 sampleOld := by
  refine (migrates_iff (by decide) rfl (by decide)).mpr fun i _ _ inv h => ?_
  simp only [sampleOld] at h
  split_ifs at h
  cases h

/-- An invoice minted before the first migration makes it fail. -/
theorem not_migrates : ¬ ∀ (env : Env) (admin : Address) (s : State), env.Authenticates admin →
    s.own.admin = some admin → s.own.migrationVersion.getD 0 < 2 → Migrates env admin s := by
  intro h
  let w := run (step sample) sampleGenesis (sampleSetup "USDC")
  obtain ⟨t, ht, -⟩ := h ⟨sample, 0, none, [1]⟩ 1 ⟨w.invoiceNft, w.accessControl, w.riskRegistry⟩
    (by decide) (by decide +kernel) (by decide +kernel)
  have hfails : (migrate 1 ⟨sample, 0, none, [1]⟩
      ⟨w.invoiceNft, w.accessControl, w.riskRegistry⟩).isOk = false := by decide +kernel
  rw [ht] at hfails
  cases hfails

end Kora.InvoiceNft
