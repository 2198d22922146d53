-- SUMMARY: The audit trail of link traffic.
import CabinetBus.Json.Printer
import CabinetBus.Time.Timestamp

/-! # Audit trail

One entry per read, write or failure on the link: the bytes in hexadecimal, or
the text of the error. A record is an entry with its time. -/

namespace CabinetBus

inductive AuditAction where
  | read
  | write
  | error
  deriving DecidableEq, Repr

/-- The one-letter code of an action. -/
def AuditAction.code : AuditAction → String
  | .read => "r"
  | .write => "w"
  | .error => "e"

structure AuditEntry where
  action : AuditAction
  detail : String
  deriving DecidableEq, Repr

structure AuditRecord where
  time : Timestamp
  entry : AuditEntry
  deriving DecidableEq, Repr

def AuditRecord.toJson (r : AuditRecord) : Json :=
  .object
    [(Json.glyphs "at", .ofString r.time.text),
     (Json.glyphs "action", .ofString r.entry.action.code),
     (Json.glyphs "detail", .ofString r.entry.detail)]

/-- The records kept in memory, oldest first. -/
structure AuditTrail where
  records : List AuditRecord
  deriving DecidableEq, Repr

def AuditTrail.empty : AuditTrail := ⟨[]⟩

def AuditTrail.record (t : AuditTrail) (r : AuditRecord) : AuditTrail := ⟨t.records ++ [r]⟩

end CabinetBus
