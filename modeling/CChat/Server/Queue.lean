import CChat.Server.Users

namespace CChat.Server.Queue

open CChat.Library CChat.Library.Circular CChat.Protocol.Types State Network Users

def timestampBits (t : ℤ) : ℕ := (t % 2 ^ 32).toNat

/-- `queue_message`. The entry behind the last live one is filled in before the
allocation, so a failed one leaves it written but outside the window. -/
def queueMessage (w : World) (recipient sender : Username) (data : Bytes) : ℤ × World :=
  if data.length = 0 then (-1, w)
  else
    match findClientByUsername w.server recipient with
    | none => (-1, w)
    | some j =>
      if (w.server.clients j).queue.count ≥ messageQueueSize then (-1, w)
      else
        let id := w.server.nextMessageId
        let w₁ := { w with server := { w.server with nextMessageId := id + 1 } }
        let now := time w₁
        let allocated := malloc now.2
        let entry : StoredMessage :=
          ⟨id, sender, recipient, now.1, data.length, none, false⟩
        if !allocated.1 then
          (-1, allocated.2.modifyClient j (fun c ↦ { c with queue := writeTail c.queue entry }))
        else
          let stored := { entry with encryptedData := some data }
          (0, (allocated.2.modifyClient j (fun c ↦
            { c with queue := push messageQueueSize c.queue stored })).emit (.queued stored))

def queuedPayload (m : StoredMessage) : Bytes :=
  BigEndian.bytes 4 m.messageId.toNat ++
    (UInt8.ofNat m.sender.bytes.length :: m.sender.bytes ++
      (BigEndian.bytes 4 (timestampBits m.timestamp) ++
        (BigEndian.bytes 2 m.encryptedLen ++ (m.encryptedData.getD []).take m.encryptedLen)))

def StoredMessage.spent (m : StoredMessage) : StoredMessage :=
  { m with delivered := true, encryptedData := none }

/-- The loop of `deliver_queued_messages`. Every turn that does not leave it
takes one entry off the ring, so `queue_count` turns are enough. -/
def deliverLoop (i : ℕ) : ℕ → ℤ → World → ℤ × World
  | 0, delivered, w => (delivered, w)
  | n + 1, delivered, w =>
    let c := w.server.clients i
    if c.queue.count > 0 then
      let m := c.queue.cells c.queue.head
      if m.delivered then
        deliverLoop i n delivered
          (w.modifyClient i (fun c ↦ { c with queue := advanceHead messageQueueSize c.queue }))
      else
        let allocated := malloc w
        if !allocated.1 then (delivered, allocated.2)
        else
          let sent := sendNetworkMessage allocated.2 c.socketFd .incomingMessage (queuedPayload m)
            (some m)
          if sent.1 = 0 then
            deliverLoop i n (delivered + 1) (sent.2.modifyClient i (fun c ↦
              { c with queue := advanceHead messageQueueSize (writeHead c.queue (StoredMessage.spent m)) }))
          else (delivered, sent.2)
    else (delivered, w)

def deliverQueuedMessages (w : World) (i : ℕ) : ℤ × World :=
  if !(w.server.clients i).authenticated then (-1, w)
  else deliverLoop i (w.server.clients i).queue.count 0 w

end CChat.Server.Queue
