-- SUMMARY: The way of a message out: admission to the queue, and the moves of the writer.
import CabinetBus.Service.Basic

/-! # Outbound messages

A message that is too large is omitted, and one that finds the queue full is
dropped; both are counted. The writer takes the oldest message, writes it,
whatever comes of that, and gives its buffer back. -/

namespace CabinetBus.Service

/-! ## Admission -/

/-- Queues a message for the writer, unless the service is ending. -/
def write (s : Service η) (data : Bytes) : Service η :=
  if s.terminating then s
  else if MessageBuffer.capacity < data.length then
    s.countMessage .writesOmitted .writesOmittedBytes data.length
  else
    let (buffer, pool) := s.pool.acquire
    match buffer.fill data with
    | .error _ =>
        { s with pool := pool.release buffer }.countMessage .writesOmitted .writesOmittedBytes
          data.length
    | .ok message =>
        if s.queue.length < s.queueCapacity then
          { s with pool, queue := s.queue ++ [message] }.countMessage .writesEnqueued
            .writesEnqueuedBytes data.length
        else
          { s with pool := pool.release message }.countMessage .writesQueueFull
            .writesQueueFullBytes data.length

/-! ## The writer -/

/-- Gives back the buffers of all queued messages. -/
def dropQueue (s : Service η) : Service η :=
  { s with pool := s.queue.foldl BufferPool.release s.pool, queue := [] }

/-- The last move of the writer. -/
def leaveWriter (s : Service η) : Service η :=
  { s.dropQueue with terminating := true, writer := .done }

/-- The move of a waiting writer. An ending service sends nothing more. -/
def takeNext (s : Service η) : Service η :=
  match s.writer, s.queue with
  | .waiting, [] => if s.terminating then s.leaveWriter else s
  | .waiting, message :: rest =>
      if s.terminating then
        { s with queue := rest, pool := s.pool.release message }.leaveWriter
      else
        { s with queue := rest, writer := .sending message }.countMessage .writesDequeued
          .writesDequeuedBytes message.length
  | _, _ => s

/-- The port has answered the message being sent. -/
def completeWrite (s : Service η) (script : WriteScript) : ServiceStep η :=
  match s.writer with
  | .sending message =>
      let step := s.link.write message.content script
      (s.absorb step).andThen fun after =>
        let counted :=
          match step.value with
          | .ok () => after.countMessage .writesSucceeded .writesSucceededBytes message.length
          | .error _ => after.countMessage .writesFailed .writesFailedBytes message.length
        .quiet { counted with pool := counted.pool.release message, writer := .waiting }
  | _ => .quiet s

end CabinetBus.Service
