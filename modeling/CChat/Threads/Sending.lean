import CChat.Library.Interleaving
import CChat.Server.Network

namespace CChat.Threads.Sending

open CChat.Library CChat.Library.Interleaving CChat.Protocol.Types CChat.Protocol.Wire
  CChat.Server.State CChat.Server.Network

abbrev Sendable := {f : Frame // f.2.length < codec.limit}

def calls (f : Sendable) : List Bytes := sendCalls f.1

theorem calls_flatten (f : Sendable) : (calls f).flatten = Framing.encode codec f.1 :=
  sendCalls_flatten f.1

/-- With every `send` complete `send_network_message` writes its calls in turn. -/
theorem sendNetworkMessage_calls {w : World} (h : w.env.Faultless) (fd : Fd) (type : MessageType)
    (payload : Bytes) (entry : Option StoredMessage) :
    wire fd (sendNetworkMessage w (some fd) type payload entry).2.out =
      wire fd w.out ++ (sendCalls (type.code, payload)).flatten := by
  have hsent := (sendNetworkMessage_faultless h (some fd) type payload entry).2 rfl
  cases sendNetworkMessage_written w (some fd) type payload entry with
  | whole n hfd _ _ _ ho =>
    obtain rfl := Option.some.inj hfd
    rw [ho, wire_append, sendCalls_flatten]
    simp [wire, Event.sent, packet, Framing.encode, codec]
  | torn n bytes _ hr =>
    rw [hr] at hsent
    cases hsent
  | dead hfd => cases hfd

variable {ι : Type} [DecidableEq ι]

/-- What the receiver decodes is what the threads have sent, each frame whole
and once and every thread's in its own order. -/
structure Intact (plan : ι → List Sendable) (l : Line ι Sendable UInt8) : Prop where
  frames : Merges (fun t ↦ (l.senders t).done.map Subtype.val) (Framing.decode codec l.stream).1
  plan : ∀ t, (l.senders t).plan = plan t

theorem calls_ne_nil {f : Sendable} {call : Bytes} (h : call ∈ calls f) : call ≠ [] := by
  rw [calls, sendCalls, List.mem_cons] at h
  obtain rfl | h := h
  · simp [frameHeader]
  · split at h
    · cases h
    next hpayload => exact List.mem_singleton.mp h ▸ hpayload

theorem decode_part {f : Sendable} {sent rest : List Bytes} (h : calls f = sent ++ rest)
    (hrest : rest ≠ []) : Framing.decodeOne codec sent.flatten = none := by
  have hall : Framing.encode codec f.1 = sent.flatten ++ rest.flatten := by
    rw [← calls_flatten, h, List.flatten_append]
  have hpos : 0 < rest.flatten.length := by
    obtain ⟨call, more, rfl⟩ := List.exists_cons_of_ne_nil hrest
    have hcall : call ≠ [] := calls_ne_nil (h ▸ List.mem_append_right _ List.mem_cons_self)
    have hlen := List.length_pos_of_ne_nil hcall
    rw [List.flatten_cons, List.length_append]
    omega
  have hcut := @Framing.decodeOne_cut _ _ codec f.1 f.2 sent.flatten.length (by
    rw [hall, List.length_append]
    omega)
  rw [hall, List.take_left] at hcut
  exact hcut

theorem Whole.decode {l : Line ι Sendable UInt8} {items : List Sendable} {sent : List Bytes}
    (h : Whole calls l items sent) :
    (Framing.decode codec l.stream).1 = items.map Subtype.val := by
  have hnone : Framing.decodeOne codec sent.flatten = none := by
    obtain ⟨_, rfl⟩ | ⟨_, f, rest, _, _, hcalls, hrest⟩ := h.current
    · decide
    · exact decode_part hcalls hrest
  have hfits : ∀ f ∈ items.map Subtype.val, f.2.length < codec.limit := by
    intro f hf
    obtain ⟨g, _, rfl⟩ := List.mem_map.mp hf
    exact g.2
  have hstream : l.stream =
      (items.map Subtype.val).flatMap (Framing.encode codec) ++ sent.flatten := by
    rw [h.stream, List.flatMap_map]
    simp only [calls_flatten]
  rw [hstream, Framing.decode_stream codec _ hfits, Framing.decode_none codec hnone,
    List.append_nil]

/-- The receiver gets every frame whole along every run in which no `send()`
call falls between the header and the payload of another thread's frame. -/
theorem frames_intact (plan : ι → List Sendable) (schedule : List ι)
    (h : Runs.Along (step calls) (Orderly calls) (Line.start plan) schedule) :
    Runs.Always (step calls) (Intact plan) (Line.start plan) schedule := by
  refine (always_whole calls plan h).mono ?_
  rintro l ⟨⟨items, sent, hwhole⟩, hplan⟩
  refine ⟨?_, hplan⟩
  rw [Whole.decode hwhole]
  exact hwhole.merges.map Subtype.val

def twoFrames : Bool → List Sendable
  | false => [⟨(0x84, [0, 0, 0, 1, 1]), by decide⟩]
  | true => [⟨(0x87, [3, 98, 111, 98, 1]), by decide⟩]

theorem inTurn_intact : Runs.Always (step calls) (Intact twoFrames) (Line.start twoFrames)
    [false, false, true, true] :=
  frames_intact twoFrames [false, false, true, true] (by decide)

theorem crossed_mixed :
    ¬ Intact twoFrames (Runs.run (step calls) (Line.start twoFrames) [false, true, true, false]) := by
  intro h
  obtain ⟨t, ht⟩ := h.frames.mem (a := (0x84, [0, 0, 0, 5, 0x87])) (by decide)
  revert t
  decide

end CChat.Threads.Sending
