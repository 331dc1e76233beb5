import Kora.System.AuditTrail

set_option autoImplicit false

/-!
# The audit logs of the system

Access control, the treasury and the risk registry write their audit logs with `append` only, so
that in every run each log is the ring buffer of some sequence of records, and its pages list the
newest of them.

* `Audited`: the log was written by appending records;
* `Entry.keeps_audited`, `World.audited_step`, **`Chain.audited_step`**: the steps keep it;
* **`audit_pages`**: what `getAuditLog` returns.
-/

namespace Kora

open Exec Run

/-- The log was written by appending records. -/
def Audited (source : AuditSource) (log : AuditLog) : Prop :=
  ∃ records, log = AuditLog.written source records

theorem audited_empty (source : AuditSource) : Audited source {} := ⟨[], rfl⟩

theorem Audited.append {source : AuditSource} {log : AuditLog} (h : Audited source log) (now : ℕ)
    (actor : Address) (action : AdminActionType) :
    Audited source (log.append source now actor action) := by
  obtain ⟨records, rfl⟩ := h
  exact ⟨records ++ [⟨now, actor, action⟩], (written_concat ⟨now, actor, action⟩).symm⟩

theorem Audited.record {source : AuditSource} {log : AuditLog} (h : Audited source log) (now : ℕ)
    (record : Option (Address × AdminActionType)) :
    Audited source (log.record source now record) := by
  match record with
  | none => exact h
  | some (actor, action) => exact h.append now actor action

theorem Appends.keeps {σ α : Type} {source : AuditSource} {log : σ → AuditLog}
    {record : Option (Address × AdminActionType)} {m : Host σ α}
    (hm : Appends source log record m) : Keeps (fun s => Audited source (log s)) m := by
  intro env s a t hs h
  rw [hm env s a t h]
  exact hs.record env.timestamp record

/-! ## The contracts -/

/-- The log of access control was written by appending records. -/
def AccessControl.Storage.Audited (S : Storage) : Prop := Kora.Audited .accessControl S.audit

/-- The log of the treasury was written by appending records. -/
def Treasury.Storage.Audited (S : Storage) : Prop := Kora.Audited .treasury S.audit

/-- The log of the risk registry was written by appending records. -/
def RiskRegistry.Storage.Audited (S : Storage) : Prop := Kora.Audited .riskRegistry S.audit

/-! ## The system -/

/-- The three logs were written by appending records. -/
def World.Audited (w : World) : Prop :=
  w.accessControl.Audited ∧ w.treasury.Audited ∧ w.riskRegistry.Audited

section System

theorem World.audited_iff {w : World} :
    w.Audited ↔ ∀ source, Kora.Audited source (w.auditLog source) := by
  constructor
  · rintro ⟨hac, ht, hr⟩ source
    cases source with
    | accessControl => exact hac
    | treasury => exact ht
    | riskRegistry => exact hr
  · exact fun h => ⟨h .accessControl, h .treasury, h .riskRegistry⟩

theorem Entry.keeps_audited (e : Entry) : Keeps World.Audited e.exec := by
  intro env w u w' hw h
  rw [World.audited_iff] at hw ⊢
  intro source
  rw [(Entry.exec_audits h).1]
  exact (hw source).record env.timestamp _

theorem World.audited_step (d : Deployment) (w : World) (a : Action) (hw : w.Audited) :
    (step d w a).Audited := by
  rcases step_cases d w a with ⟨c, rfl, -, h⟩ | ⟨n, rfl, h⟩ | ⟨c, rfl, -, h⟩
  · exact Entry.keeps_audited c.entry _ _ _ _ hw h
  · rw [h]
    exact hw
  · rw [h]
    exact hw

/-- **Every step of the system with upgrades keeps the logs.** -/
theorem Chain.audited_step (d : Deployment) (s : Chain) (a : Chain.Action)
    (hs : s.world.Audited) : (Chain.step d s a).world.Audited := by
  cases a with
  | base a => exact World.audited_step d s.world a hs
  | upload hash => exact hs
  | upgrade signers op =>
    rcases Chain.step_upgrade_cases d s signers op with ⟨hexec, -⟩ | ⟨-, hsame⟩
    · rw [World.audited_iff] at hs ⊢
      exact fun source => (op.appends source).keeps _ _ _ _ (hs source) hexec
    · rw [hsame]
      exact hs

end System

/-! ## Reading the logs -/

/-- `getAuditLog` of a contract. -/
def getAuditLog (source : AuditSource) (page pageSize : ℕ) : Host World (List AdminAuditEntry) :=
  match source with
  | .accessControl => onAccessControl (AccessControl.getAuditLog page pageSize)
  | .treasury => onTreasury (Treasury.own (Treasury.getAuditLog page pageSize))
  | .riskRegistry => onRiskRegistry (RiskRegistry.own (RiskRegistry.getAuditLog page pageSize))

/-- The page that `getAuditLog` should return. -/
def auditPage (source : AuditSource) (records : List AuditRecord) (pageSize page : ℕ) :
    List AdminAuditEntry :=
  (recent source records).page (clampPageSize pageSize) page

/-- In the ledger `w`, `getAuditLog` lists the full log of the records: it returns the pages of the
newest entries, without a trap; these are numbered downwards from the last; and together the pages
are the newest entries, each once. -/
structure ListsLog (source : AuditSource) (records : List AuditRecord) (w : World) : Prop where
  page : ∀ env page pageSize, getAuditLog source page pageSize env w =
    .ok (auditPage source records pageSize page) w
  sequences : ∀ page pageSize,
    (auditPage source records pageSize page).map AdminAuditEntry.sequence =
      (List.range (min (clampPageSize pageSize)
        (min records.length maxAuditLogSize - page * clampPageSize pageSize))).map
        fun i => records.length - 1 - page * clampPageSize pageSize - i
  complete : ∀ pageSize count,
    min records.length maxAuditLogSize ≤ count * clampPageSize pageSize →
      ((List.range count).map (auditPage source records pageSize)).flatten = recent source records
  nodup : ((recent source records).map AdminAuditEntry.sequence).Nodup

section Reading

variable {source : AuditSource} {records : List AuditRecord} {w : World}

theorem getAuditLog_eq {page pageSize : ℕ} {entries : List AdminAuditEntry}
    (hpage : (w.auditLog source).getAuditLog page pageSize = some entries) (env : Env) :
    getAuditLog source page pageSize env w = .ok entries w := by
  cases source with
  | accessControl =>
    refine onAccessControl_ok.mpr ⟨w.accessControl, ?_, rfl⟩
    rw [AccessControl.getAuditLog, gets_run, ofOption_ok]
    exact ⟨hpage, rfl⟩
  | treasury =>
    refine onTreasury_ok.mpr ⟨(w.treasury, w.tokens), zoom_ok.mpr ⟨w.treasury, ?_, rfl⟩, rfl⟩
    rw [Treasury.getAuditLog, gets_run, ofOption_ok]
    exact ⟨hpage, rfl⟩
  | riskRegistry =>
    refine onRiskRegistry_ok.mpr ⟨(w.riskRegistry, w.tokens), zoom_ok.mpr ⟨w.riskRegistry, ?_, rfl⟩,
      rfl⟩
    rw [RiskRegistry.getAuditLog, gets_run, ofOption_ok]
    exact ⟨hpage, rfl⟩

/-- **A log written by appending records lists them.** -/
theorem listsLog_of_written (h : w.auditLog source = AuditLog.written source records) :
    ListsLog source records w where
  page env page pageSize := by
    refine getAuditLog_eq ?_ env
    rw [h]
    exact getAuditLog_written source records page pageSize
  sequences page pageSize := page_sequences source records (clampPageSize pageSize) page
  complete pageSize count hcount := by
    have hlength : (recent source records).length ≤ count * clampPageSize pageSize :=
      length_recent.trans_le hcount
    calc ((List.range count).map (auditPage source records pageSize)).flatten
        = (recent source records).take (count * clampPageSize pageSize) :=
          List.pages_flatten _ _ count
      _ = recent source records := List.take_of_length_le hlength
  nodup := by
    rw [recent_sequences, List.nodup_map_iff_inj_on List.nodup_range]
    intro i hi j hj hij
    rw [List.mem_range] at hi hj
    omega

theorem World.Audited.written (h : w.Audited) (source : AuditSource) :
    ∃ records, w.auditLog source = AuditLog.written source records :=
  World.audited_iff.mp h source

end Reading

/-- **The audit pages list the full log**: after any sequence of appended records, and in every run
of the system with upgrades for some sequence of records, `getAuditLog` of access control, the
treasury and the risk registry lists the newest entries of the full log, page by page. -/
theorem audit_pages (source : AuditSource) :
    (∀ records w, w.auditLog source = AuditLog.written source records →
      ListsLog source records w) ∧
    ∀ d start tokens as, ∃ records,
      (run (Chain.step d) (Chain.genesis start tokens) as).world.auditLog source =
        AuditLog.written source records ∧
      ListsLog source records (run (Chain.step d) (Chain.genesis start tokens) as).world := by
  refine ⟨fun records w h => listsLog_of_written h, fun d start tokens as => ?_⟩
  have haudited : (run (Chain.step d) (Chain.genesis start tokens) as).world.Audited :=
    always (I := fun s : Chain => s.world.Audited) (Chain.audited_step d)
      (s := Chain.genesis start tokens)
      ⟨audited_empty .accessControl, audited_empty .treasury, audited_empty .riskRegistry⟩ as
  obtain ⟨records, hrecords⟩ := haudited.written source
  exact ⟨records, hrecords, listsLog_of_written hrecords⟩

/-- Two actions of the treasury. -/
def sampleRecords : List AuditRecord := [⟨0, 1, .setFeeBps⟩, ⟨5, 1, .whitelistToken⟩]

/-- The ledger with these two actions in the log of the treasury. -/
def sampleAudited : World :=
  { genesis 5 sampleTokens with treasury := { audit := .written .treasury sampleRecords } }

/-- With one entry on a page, the second page holds the first action. -/
theorem audit_pages_sample : getAuditLog .treasury 1 1 ⟨sample, 5, none, []⟩ sampleAudited =
    .ok [⟨0, 0, 1, .setFeeBps, .treasury⟩] sampleAudited :=
  ((audit_pages .treasury).1 sampleRecords sampleAudited rfl).page _ 1 1

end Kora
