import Mathlib.Data.List.Induction
import Mathlib.Tactic.Common
import Kora.Lib.RingBuffer
import Kora.Shared.Audit

set_option autoImplicit false

/-!
# The pages of the audit log

The ring buffer against the full log, the list of all entries ever appended.

* `AuditLog.written`, `fullLog`: the buffer and the list after the same sequence of records;
* `holds_written`: the buffer holds the end of the list;
* **`getAuditLog_written`**: the pages read from the buffer are the pages of `recent`, the newest
  entries of the list;
* `page_sequences`, `recent_sequences`: their sequence numbers.
-/

namespace Kora

/-- What an appended entry records. -/
structure AuditRecord where
  timestamp : ℕ
  actor : Address
  action : AdminActionType

/-- The buffer after appending the records. -/
def AuditLog.written (source : AuditSource) (records : List AuditRecord) : AuditLog :=
  records.foldl (fun log r => log.append source r.timestamp r.actor r.action) {}

/-- All entries appended, oldest first. -/
def fullLog (source : AuditSource) (records : List AuditRecord) : List AdminAuditEntry :=
  records.mapIdx fun sequence r => ⟨sequence, r.timestamp, r.actor, r.action, source⟩

/-- The entries that the buffer still stores, newest first. -/
def recent (source : AuditSource) (records : List AuditRecord) : List AdminAuditEntry :=
  (fullLog source records).reverse.take maxAuditLogSize

/-- The log as a ring buffer. -/
def AuditLog.buffer (log : AuditLog) : RingBuffer AdminAuditEntry :=
  ⟨log.head, log.total, log.entry⟩

section Written

variable {source : AuditSource} {records : List AuditRecord} {log : AuditLog}

theorem append_buffer {now : ℕ} {actor : Address} {action : AdminActionType} :
    (log.append source now actor action).buffer =
      log.buffer.push maxAuditLogSize ⟨log.total, now, actor, action, source⟩ := rfl

theorem written_concat (r : AuditRecord) : AuditLog.written source (records ++ [r]) =
    (AuditLog.written source records).append source r.timestamp r.actor r.action := by
  rw [AuditLog.written, List.foldl_append]
  rfl

@[simp] theorem length_fullLog : (fullLog source records).length = records.length :=
  List.length_mapIdx

@[simp] theorem length_recent :
    (recent source records).length = min records.length maxAuditLogSize := by
  rw [recent, List.length_take, List.length_reverse, length_fullLog, min_comm]

theorem fullLog_concat (r : AuditRecord) : fullLog source (records ++ [r]) =
    fullLog source records ++ [⟨records.length, r.timestamp, r.actor, r.action, source⟩] := by
  rw [fullLog, List.mapIdx_append, List.mapIdx_singleton, Nat.zero_add]
  rfl

theorem holds_written (source : AuditSource) (records : List AuditRecord) :
    (AuditLog.written source records).buffer.Holds maxAuditLogSize (fullLog source records) := by
  induction records using List.reverseRecOn with
  | nil => exact RingBuffer.holds_empty _
  | append_singleton records r ih =>
    have htotal : (AuditLog.written source records).total = records.length :=
      ih.total.trans length_fullLog
    rw [written_concat, append_buffer, fullLog_concat, htotal]
    exact ih.push _

end Written

/-! ## Reading -/

section Reading

variable {source : AuditSource} {records : List AuditRecord}

theorem position_eq {head offset : ℕ} (hhead : head < maxAuditLogSize)
    (hoffset : offset < maxAuditLogSize) : AuditLog.position head offset =
      some ((head + maxAuditLogSize - 1 - offset) % maxAuditLogSize) := by
  unfold maxAuditLogSize at *
  have hadd : checkedAddU64 head 500 = some (head + 500) := if_pos (by omega)
  have hone : checkedSubU64 (head + 500) 1 = some (head + 500 - 1) := if_pos (by omega)
  have hsub : checkedSubU64 (head + 500 - 1) offset = some (head + 500 - 1 - offset) :=
    if_pos (by omega)
  simp only [AuditLog.position, maxAuditLogSize, hadd, hone, hsub, Option.bind_eq_bind,
    Option.bind_some]

/-- The loop collects the entries from the offset on, and no index leaves the `u64` range. -/
theorem collect_written {skip : ℕ} (n i : ℕ) (results : List AdminAuditEntry)
    (hskip : skip + i < 2 ^ 64) : (AuditLog.written source records).collect skip
      (min records.length maxAuditLogSize) n i results =
        some (results ++ ((recent source records).drop (skip + i)).take n) := by
  induction n generalizing i results with
  | zero => simp [AuditLog.collect]
  | succ n ih =>
    have hadd : checkedAddU64 skip i = some (skip + i) := if_pos hskip
    simp only [AuditLog.collect, hadd, Option.bind_eq_bind, Option.bind_some]
    by_cases hstored : min records.length maxAuditLogSize ≤ skip + i
    · have hdrop : (recent source records).drop (skip + i) = [] :=
        List.drop_eq_nil_of_le (length_recent.trans_le hstored)
      rw [if_pos hstored, hdrop, List.take_nil, List.append_nil]
    · rw [not_le, lt_min_iff] at hstored
      obtain ⟨hlen, hsize⟩ := hstored
      have hholds := holds_written source records
      have hhead : (AuditLog.written source records).head < maxAuditLogSize :=
        hholds.head.trans_lt (Nat.mod_lt _ (by decide))
      have hentry := hholds.newest (length_fullLog.symm ▸ hlen) hsize
      have hrecent : (fullLog source records).reverse[skip + i]? =
          (recent source records)[skip + i]? := (List.getElem?_take_of_lt hsize).symm
      have hlt : skip + i < (recent source records).length := by
        rw [length_recent]
        exact lt_min hlen hsize
      rw [if_neg (by rw [not_le]; exact lt_min hlen hsize), position_eq hhead hsize,
        Option.bind_some, ih (i + 1) _ (by unfold maxAuditLogSize at hsize; omega),
        List.drop_eq_getElem_cons hlt, List.take_succ_cons]
      have hslot : (AuditLog.written source records).entry
          (((AuditLog.written source records).head + maxAuditLogSize - 1 - (skip + i)) %
            maxAuditLogSize) = some (recent source records)[skip + i] := by
        rw [← List.getElem?_eq_getElem hlt, ← hrecent]
        exact hentry
      rw [hslot, Option.toList_some, List.append_assoc]
      rfl

/-- **The pages of the buffer are the pages of the newest entries.** -/
theorem getAuditLog_written (source : AuditSource) (records : List AuditRecord)
    (page pageSize : ℕ) : (AuditLog.written source records).getAuditLog page pageSize =
      some ((recent source records).page (clampPageSize pageSize) page) := by
  have htotal : (AuditLog.written source records).total = records.length :=
    (holds_written source records).total.trans length_fullLog
  have hskip : saturatingMulU64 page (clampPageSize pageSize) + 0 < 2 ^ 64 := by
    unfold saturatingMulU64
    omega
  rw [AuditLog.getAuditLog, htotal, collect_written _ 0 [] hskip, List.nil_append, List.page,
    add_zero]
  -- a product that saturates is past the end of the log anyway
  by_cases hsat : page * clampPageSize pageSize ≤ 2 ^ 64 - 1
  · rw [saturatingMulU64, min_eq_left hsat]
  · have hlen : (recent source records).length ≤ 500 := length_recent.trans_le (min_le_right _ _)
    rw [saturatingMulU64, min_eq_right (by omega), List.drop_eq_nil_of_le (by omega),
      List.drop_eq_nil_of_le (by omega)]

end Reading

/-! ## Sequence numbers -/

section Sequences

variable (source : AuditSource) (records : List AuditRecord)

theorem fullLog_sequences : (fullLog source records).map AdminAuditEntry.sequence =
    List.range records.length := by
  refine List.ext_getElem (by simp) fun i _ _ => ?_
  simp [fullLog]

theorem recent_sequences : (recent source records).map AdminAuditEntry.sequence =
    (List.range (min records.length maxAuditLogSize)).map fun i => records.length - 1 - i := by
  rw [recent, List.map_take, List.map_reverse, fullLog_sequences]
  refine List.ext_getElem (by simp [min_comm]) fun i _ _ => ?_
  simp

theorem page_sequences (size page : ℕ) :
    ((recent source records).page size page).map AdminAuditEntry.sequence =
      (List.range (min size (min records.length maxAuditLogSize - page * size))).map
        fun i => records.length - 1 - page * size - i := by
  rw [List.page, List.map_take, List.map_drop, recent_sequences]
  refine List.ext_getElem (by simp) fun i _ _ => ?_
  simp
  omega

end Sequences

end Kora
