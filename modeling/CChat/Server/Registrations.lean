import CChat.Server.Conversation
import CChat.Server.Registry

namespace CChat.Server.Registrations

open CChat.Library CChat.Protocol.Types CChat.Protocol.Wire State Network Users Handlers Loop Names
  Invariants History Delivery Refusals Answers Conversation

variable {verify : Signature → Challenge → Key → Bool} {i : ℕ} {fd : Fd} {w v : World}
  {payload : Bytes}

structure Unheard (w : World) (i : ℕ) (fd : Fd) : Prop extends Fresh w i fd where
  uncounted : (w.server.clients i).rateLimit.requestCount = 0

theorem Unheard.admits (h : Unheard w i fd) (env : Env) :
    (checkRateLimit { w with env := env } i).1 = true := by
  have hlimit : ((time { w with env := env }).2.server.clients i).rateLimit.requestCount = 0 := by
    rw [time_server]
    exact h.uncounted
  unfold checkRateLimit
  dsimp only
  split
  · rfl
  · rw [hlimit]
    rfl

def registrationAnswer (w : World) (payload : Bytes) : MessageType × Bytes :=
  match parseRegister payload with
  | .error e => (.error, errorPayload e.code (text e.message))
  | .ok (username, publicKey) =>
    let added := addUser w username publicKey
    if added.1 = 0 then (.registerResponse, [1, 0])
    else if added.1 = -2 then (.registerResponse, [0, ErrorCode.userExists.code])
    else (.registerResponse, [0, ErrorCode.serverError.code])

theorem sendNetworkMessage_whole (hv : v.env.Faultless) (type : MessageType) (payload : Bytes)
    (entry : Option StoredMessage) :
    wire fd (sendNetworkMessage v (some fd) type payload entry).2.out =
      wire fd v.out ++ packet type.code payload := by
  have hzero := (sendNetworkMessage_faultless hv (some fd) type payload entry).2 rfl
  cases sendNetworkMessage_written v (some fd) type payload entry with
  | whole n hfd _ _ _ ho =>
    obtain rfl := Option.some.inj hfd
    rw [ho, wire_append]
    simp [wire, Event.sent]
  | torn n bytes _ hr =>
    rw [hzero] at hr
    cases hr
  | dead hfd => cases hfd

theorem handleRegisterUser_wire (hv : v.env.Faultless)
    (hfd : (v.server.clients i).socketFd = some fd) (payload : Bytes) :
    wire fd (handleRegisterUser v i payload).2.out =
      wire fd v.out ++ packet (registrationAnswer v payload).1.code (registrationAnswer v payload).2 := by
  unfold handleRegisterUser registrationAnswer
  cases hparse : parseRegister payload with
  | error e =>
    obtain ⟨hroom, hleft⟩ := malloc_faultless hv
    have hsent := @sendNetworkMessage_whole fd _ hleft .error (errorPayload e.code (text e.message))
      none
    dsimp only
    rw [refuse, hfd, sendError]
    dsimp only
    rw [hroom, if_neg (by decide), hsent, malloc_out]
  | ok parsed =>
    have hadded : (addUser v parsed.1 parsed.2).2.env = v.env ∧
        (addUser v parsed.1 parsed.2).2.out = v.out ∧
        (addUser v parsed.1 parsed.2).2.server.clients = v.server.clients := by
      unfold addUser
      split_ifs <;> exact ⟨rfl, rfl, rfl⟩
    have hreply : ∀ response, wire fd
        (reply (addUser v parsed.1 parsed.2).2 i .registerResponse response).2.out =
          wire fd v.out ++ packet MessageType.registerResponse.code response := by
      intro response
      rw [reply, hadded.2.2, hfd, sendNetworkMessage_whole (hadded.1 ▸ hv), hadded.2.1]
    dsimp only
    split_ifs <;> exact hreply _

/-- The turn of the first request of a connection, when it is a registration. -/
theorem Unheard.registers (hw : Steady w) (h : Unheard w i fd) {env : Env} (henv : env.Faultless)
    (hfits : payload.length ≤ maxMessageLen * 2) :
    ∃ v, v.server.users = w.server.users ∧ v.server.userCount = w.server.userCount ∧
      step verify w (.receive i (packet MessageType.registerUser.code payload) env) =
        (handleRegisterUser v i payload).2 ∧
      wire fd (handleRegisterUser v i payload).2.out =
        packet (registrationAnswer v payload).1.code (registrationAnswer v payload).2 := by
  have hreq := @takeRequest_admissible i w MessageType.registerUser.code payload env
    ⟨hfits, henv, h.admits env⟩
  have hleft := @takeRequest_faultless i { w with env := env } _ _ henv hreq
  obtain ⟨hnoted, r, hserver⟩ := @takeRequest_some i fd { w with env := env } _ _ _ h.socket hreq
  have hturn := (@Steps.clientHandler_dispatch verify i w fd _ env _ payload h.socket h.connected
    hw.sound.sockets.running hreq (by decide)).1
  generalize (takeRequest { w with env := env } i
    (packet MessageType.registerUser.code payload)).2 = v at hleft hnoted hserver hturn
  have hfd : (v.server.clients i).socketFd = some fd := by
    rw [hserver, modifyClient_self]
    exact h.socket
  have hnone : wire fd v.out = [] := by
    rw [hnoted, wire_append]
    exact List.append_eq_nil_iff.mpr ⟨h.unwritten, rfl⟩
  refine ⟨v, by rw [hserver]; rfl, by rw [hserver]; rfl, ?_, ?_⟩
  · rw [Steps.step_receive _ env h.connected, hturn]
    rfl
  · rw [handleRegisterUser_wire hleft hfd, hnone, List.nil_append]

end CChat.Server.Registrations
