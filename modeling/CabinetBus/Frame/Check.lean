-- SUMMARY: What makes bytes a frame: markers on the wire, and the checksum once unescaped.
import CabinetBus.Error
import CabinetBus.Frame.Marker
import CabinetBus.Frame.Checksum

/-! # Checks on frames

A wire frame is longer than the fixed parts of a frame and stands between the two
markers. An unframed frame holds its body unescaped between the markers, and its
last three bytes are the checksum and the end marker. -/

namespace CabinetBus.Frame

/-- Start marker, identifier, checksum and end marker. -/
def overhead : Nat := 5

/-! ## Markers -/

def checkMarkers (wire : Bytes) : Except FrameError Unit :=
  if wire.length ≤ overhead then .error .invalidBuffer
  else if wire.head? ≠ some startMarker then .error .invalidStart
  else if wire.getLast? ≠ some endMarker then .error .invalidEnd
  else .ok ()

/-! ## Checksums -/

/-- The payload length of an unframed frame. -/
def dataLength (decoded : Bytes) : Nat := decoded.length - overhead

/-- The checksum of identifier and payload of an unframed frame; there is none
below four bytes. -/
def computedChecksum? (decoded : Bytes) : Option (BitVec 16) :=
  if decoded.length < 4 then none
  else some (Checksum.of (decoded.slice 1 (decoded.length - 3)))

/-- The checksum that an unframed frame carries; there is none below three bytes. -/
def carriedChecksum? (decoded : Bytes) : Option (BitVec 16) :=
  match decoded.drop (decoded.length - 3) with
  | high :: low :: _ :: _ => some (Checksum.ofBytes high low)
  | _ => none

/-- An escape marker just before the end marker can leave fewer than four bytes;
such a frame is refused before its checksums are compared. -/
def checkChecksum (decoded : Bytes) : Except FrameError Unit :=
  match computedChecksum? decoded, carriedChecksum? decoded with
  | some expected, some actual =>
      if expected = actual then .ok () else .error (.checksum expected actual)
  | _, _ => .error .invalidBuffer

end CabinetBus.Frame
