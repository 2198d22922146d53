-- SUMMARY: A watcher of inbound frames that keeps the latest static status and counts the rest.
import CabinetBus.Message.ReportReader
import CabinetBus.Metrics

/-! # Status watch

Every frame falls into one of four classes, which depend on the frame alone. Only
a static status replaces the snapshot. -/

namespace CabinetBus

/-! ## Classes of frames -/

/-- What a frame means to a watch. -/
inductive FrameClass where
  /-- It does not unframe, or it is a static status that is too short. -/
  | rejected
  | status (report : StaticStatus)
  /-- It unframes and its identifier is not in the catalog. -/
  | unknown
  /-- Any other report or request. -/
  | ignored
  deriving DecidableEq, Repr

/-- Classifies the outcome of loading a frame. -/
def FrameClass.ofLoaded : Except LinkError Unit × ReportReader → FrameClass
  | (.error _, _) => .rejected
  | (.ok (), reader) =>
      match reader.identifier with
      | .staticStatusResponse =>
          match reader.staticStatus with
          | .ok report => .status report
          | .error _ => .rejected
      | .unknown _ => .unknown
      | _ => .ignored

/-! ## The watch -/

structure StatusWatch where
  reader : ReportReader
  /-- The latest static status. -/
  snapshot : Option StaticStatus
  deriving DecidableEq, Repr

namespace StatusWatch

def new : StatusWatch := ⟨.empty, none⟩

/-- What a frame of a class adds to the counts. -/
def count (wire : Bytes) (tally : Tally) : FrameClass → Tally
  | .rejected => tally.addMessage .decodeErrors .decodeErrorBytes wire.length
  | .status _ => tally.increment .staticStatusResponses
  | .unknown => tally.increment .unknownIdentifiers
  | .ignored => tally

/-- Takes a raw frame. -/
def receive (w : StatusWatch) (tally : Tally) (wire : Bytes) : StatusWatch × Tally :=
  let loaded := w.reader.load wire
  let frameClass := FrameClass.ofLoaded loaded
  let snapshot :=
    match frameClass with
    | .status report => some report
    | _ => w.snapshot
  (⟨loaded.2, snapshot⟩, count wire tally frameClass)

end StatusWatch

end CabinetBus
