import CChat.Client.Network

namespace CChat.Client.Sockets

open CChat.Protocol.Types CChat.Protocol.Wire Network

/-- The process holds the socket of `server_socket` and no other, and without
one it is not connected. -/
structure OwnsSocket (c : ClientState) : Prop where
  held : c.openSockets = c.serverSocket.toList
  connected : c.serverSocket = none → c.connectedToServer = false

structure Disconnected (c : ClientState) : Prop where
  socket : c.serverSocket = none
  connected : c.connectedToServer = false
  held : c.openSockets = []

structure SameSockets (c c' : ClientState) : Prop where
  socket : c'.serverSocket = c.serverSocket
  held : c'.openSockets = c.openSockets
  connected : c'.connectedToServer = true → c.connectedToServer = true

theorem SameSockets.refl (c : ClientState) : SameSockets c c := ⟨rfl, rfl, id⟩

theorem SameSockets.trans {c c' c'' : ClientState} (h : SameSockets c c')
    (h' : SameSockets c' c'') : SameSockets c c'' :=
  ⟨h'.socket.trans h.socket, h'.held.trans h.held, h.connected ∘ h'.connected⟩

theorem OwnsSocket.of_same {c c' : ClientState} (h : OwnsSocket c) (hsame : SameSockets c c') :
    OwnsSocket c' := by
  refine ⟨by rw [hsame.held, hsame.socket, h.held], fun hnone ↦ ?_⟩
  rw [hsame.socket] at hnone
  exact Bool.eq_false_iff.mpr fun hc ↦ Bool.eq_false_iff.mp (h.connected hnone) (hsame.connected hc)

theorem OwnsSocket.disconnected {c : ClientState} (h : OwnsSocket c) (hnone : c.serverSocket = none) :
    Disconnected c :=
  ⟨hnone, h.connected hnone, by rw [h.held, hnone]; rfl⟩

theorem Disconnected.owns {c : ClientState} (h : Disconnected c) : OwnsSocket c :=
  ⟨by rw [h.held, h.socket]; rfl, fun _ ↦ h.connected⟩

theorem malloc_same (c : ClientState) : SameSockets c (malloc c).2 := by
  unfold malloc
  split
  · exact .refl c
  · exact ⟨rfl, rfl, id⟩

theorem sendAll_same (c : ClientState) (bytes : Bytes) : SameSockets c (sendAll c bytes).2 := by
  unfold sendAll send
  dsimp only
  split
  next h =>
    split at h
    · exact ⟨rfl, rfl, id⟩
    · exact ⟨rfl, rfl, id⟩
    · cases h
  next broken h =>
    split at h
    · cases h
    · cases h
    · cases broken
      · exact ⟨rfl, rfl, id⟩
      · exact ⟨rfl, rfl, nofun⟩

theorem sendNetworkMessage_same (c : ClientState) (type : UInt8) (payload : Bytes) :
    SameSockets c (sendNetworkMessage c type payload).2 := by
  have hheader := sendAll_same c (frameHeader type payload.length)
  have hbody := hheader.trans (sendAll_same _ payload)
  unfold sendNetworkMessage
  dsimp only
  split_ifs
  · exact .refl c
  · exact hheader
  · exact hbody
  · exact hbody
  · exact hheader

theorem recv_same (c : ClientState) (n : ℕ) : SameSockets c (recv c n).2 := ⟨rfl, rfl, id⟩

theorem receiveNetworkMessage_same (c : ClientState) :
    SameSockets c (receiveNetworkMessage c).2 := by
  have hheader := recv_same c 5
  have hroom := hheader.trans (malloc_same (recv c 5).2)
  unfold receiveNetworkMessage
  dsimp only
  split
  · exact .refl c
  · split_ifs
    · exact hheader
    · exact hroom
    · exact hroom.trans (recv_same _ _)
    · exact hroom.trans (recv_same _ _)
    · exact hheader

theorem request_same (c : ClientState) (type : UInt8) (payload : Bytes) :
    SameSockets c (request c type payload).2 := by
  have hroom := malloc_same c
  have hsent := hroom.trans (sendNetworkMessage_same (malloc c).2 type payload)
  have hreceived := hsent.trans (receiveNetworkMessage_same _)
  unfold request
  dsimp only
  split_ifs
  · exact hroom
  · exact hsent
  · split
    · exact hreceived
    · exact hreceived

theorem registerUserWithServer_same (c : ClientState) (username : Bytes) (publicKey : Key) :
    SameSockets c (registerUserWithServer c username publicKey).2 := by
  have hrequest := request_same c 0x01 (nameField username ++ publicKey.toList)
  unfold registerUserWithServer
  dsimp only
  split_ifs
  · exact .refl c
  · exact .refl c
  · split
    · exact hrequest
    · exact hrequest

theorem getUserPublicKey_same (c : ClientState) (username : Bytes) :
    SameSockets c (getUserPublicKey c username).2 := by
  have hrequest := request_same c 0x03 (nameField username)
  unfold getUserPublicKey
  dsimp only
  split_ifs
  · exact .refl c
  · exact .refl c
  · split
    · exact hrequest
    · exact hrequest

theorem sendMessageToServer_same (c : ClientState) (recipient encryptedMessage : Bytes) :
    SameSockets c (sendMessageToServer c recipient encryptedMessage).2 := by
  have hrequest := request_same c 0x04 (nameField recipient ++
    (CChat.Library.BigEndian.bytes 2 encryptedMessage.length ++ encryptedMessage))
  unfold sendMessageToServer
  dsimp only
  split_ifs
  · exact .refl c
  · exact .refl c
  · split
    · exact hrequest
    · exact hrequest

theorem connect_same (c : ClientState) : SameSockets c (connect c).2 := by
  unfold connect
  split
  · exact .refl c
  · exact ⟨rfl, rfl, id⟩
  · exact ⟨rfl, rfl, id⟩

/-- A socket that was made is held, and nothing else has changed. -/
theorem socket_held (c : ClientState) :
    (socket c).2.openSockets = (socket c).1.toList ++ c.openSockets ∧
      (socket c).2.connectedToServer = c.connectedToServer := by
  unfold socket
  dsimp only
  split <;> exact ⟨rfl, rfl⟩

/-- Without a connection `connect_to_server` makes one that is held, or none. -/
theorem connectToServer_cases {c : ClientState} (h : Disconnected c) :
    (connectToServer c).1 = .success ∧ OwnsSocket (connectToServer c).2 ∨
      (connectToServer c).1 = .network ∧ Disconnected (connectToServer c).2 := by
  obtain ⟨hheld, hconnected⟩ := socket_held c
  rw [h.held, List.append_nil] at hheld
  rw [h.connected] at hconnected
  unfold connectToServer
  rw [h.connected, if_neg (by decide)]
  dsimp only
  cases hs : (socket c).1 with
  | none =>
    rw [hs] at hheld
    exact .inr ⟨rfl, rfl, hconnected, hheld⟩
  | some s =>
    rw [hs] at hheld
    have hsame := connect_same { (socket c).2 with serverSocket := some s }
    dsimp only
    split
    · refine .inr ⟨rfl, rfl, ?_, ?_⟩
      · exact Bool.eq_false_iff.mpr fun hc ↦ Bool.eq_false_iff.mp hconnected (hsame.connected hc)
      · dsimp only [close]
        rw [hsame.held, hheld]
        simp
    · refine .inl ⟨rfl, ?_, ?_⟩
      · dsimp only
        rw [hsame.held, hsame.socket, hheld]
      · intro hnone
        dsimp only at hnone
        rw [hsame.socket] at hnone
        cases hnone

theorem disconnectFromServer_disconnected {c : ClientState} (h : OwnsSocket c) :
    Disconnected (disconnectFromServer c).2 := by
  unfold disconnectFromServer
  split
  next hnone =>
    exact ⟨hnone, h.connected hnone, by rw [h.held, hnone]; rfl⟩
  next s hs =>
    have hsaid : SameSockets c
        (if c.connectedToServer then (sendNetworkMessage c 0x08 []).2 else c) := by
      split
      · exact sendNetworkMessage_same c 0x08 []
      · exact .refl c
    refine ⟨rfl, rfl, ?_⟩
    dsimp only [close]
    rw [hsaid.held, h.held, hs]
    simp

end CChat.Client.Sockets
