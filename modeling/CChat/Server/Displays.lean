import CChat.Server.Names

namespace CChat.Server.Displays

open CChat.Library CChat.Protocol.Types State Network Users Handlers Names

abbrev Entry := Username × UInt8

def readEntry : Bytes → Option (Entry × Bytes)
  | [] => none
  | n :: rest =>
    if rest.length < n.toNat + 1 then none
    else some ((Username.ofBytes (rest.take n.toNat), (rest.drop n.toNat).headD 0),
      rest.drop (n.toNat + 1))

def readEntries : ℕ → Bytes → Option (List Entry)
  | 0, _ => some []
  | n + 1, bs =>
    match readEntry bs with
    | none => none
    | some (e, rest) => (readEntries n rest).map (fun es ↦ e :: es)

def readUserList (payload : Bytes) : Option (List Entry) :=
  readEntries (BigEndian.value (payload.take 2)) (payload.drop 2)

def readStatusUpdate (payload : Bytes) : Option Entry := (readEntry payload).map Prod.fst

/-- What a connection shows for its stream: the name it is logged in under, the
users of the lists it got since, and the last status it was told of each user. -/
structure Display where
  name : Option Username
  listed : List Username
  shown : Username → Option UInt8

def Display.blank : Display := ⟨none, [], fun _ ↦ none⟩

def Display.login (d : Display) (name : Username) : Display :=
  if d.name = some name then d else { d with name := some name, listed := [] }

def Display.note (d : Display) (es : List Entry) : Display :=
  { d with shown := fun u ↦
      ((es.find? (fun e ↦ decide (e.1 = u))).map Prod.snd).or (d.shown u) }

def Display.list (d : Display) (es : List Entry) : Display :=
  { d.note es with listed := d.listed ++ es.map Prod.fst }

def Display.see (fd : Fd) (d : Display) : Event → Display
  | .login fd' name _ _ _ => if fd' = fd then d.login name else d
  | .frame fd' .userListResponse payload _ =>
    if fd' = fd then d.list ((readUserList payload).getD []) else d
  | .frame fd' .statusUpdate payload _ =>
    if fd' = fd then d.note (readStatusUpdate payload).toList else d
  | _ => d

def display (out : List Event) (fd : Fd) : Display := out.foldl (Display.see fd) Display.blank

theorem note_told {d : Display} {es : List Entry} {u : Username} {code : UInt8}
    (hmem : (u, code) ∈ es) (hall : ∀ e ∈ es, e.1 = u → e.2 = code) :
    (d.note es).shown u = some code := by
  simp only [Display.note]
  cases hfind : es.find? (fun e ↦ decide (e.1 = u)) with
  | none => exact absurd (decide_eq_true rfl) (List.find?_eq_none.mp hfind _ hmem)
  | some e =>
    have hname : decide (e.1 = u) = true :=
      List.find?_some (p := fun e : Entry ↦ decide (e.1 = u)) hfind
    rw [Option.map_some, hall e (List.mem_of_find?_eq_some hfind) (of_decide_eq_true hname),
      Option.some_or]

theorem note_other {d : Display} {es : List Entry} {u : Username} (hall : ∀ e ∈ es, e.1 ≠ u) :
    (d.note es).shown u = d.shown u := by
  have hnone : es.find? (fun e ↦ decide (e.1 = u)) = none :=
    List.find?_eq_none.mpr (fun e he heq ↦ hall e he (of_decide_eq_true heq))
  simp only [Display.note, hnone, Option.map_none, Option.none_or]

def listPayload (users : List UserRecord) : Bytes :=
  BigEndian.bytes 2 users.length ++ users.flatMap userEntry

def entryOf (u : UserRecord) : Entry := (u.username, u.status.code)

theorem ofBytes_self (u : Username) : Username.ofBytes u.bytes = u :=
  CString.ext ((ofBytes_exact u.fits).mpr u.no_nul)

theorem readEntry_append (u : Username) (status : UserStatus) (rest : Bytes) :
    readEntry (statusPayload u status ++ rest) = some ((u, status.code), rest) := by
  have hlen : (UInt8.ofNat u.bytes.length).toNat = u.bytes.length :=
    UInt8.toNat_ofNat_of_lt (Nat.lt_trans u.fits (by decide))
  have hbytes : u.bytes ++ [status.code] ++ rest = u.bytes ++ (status.code :: rest) := by simp
  simp only [statusPayload, List.cons_append, readEntry, hlen, hbytes]
  rw [if_neg (by simp), List.take_left, List.drop_left, ofBytes_self, ← List.drop_drop,
    List.drop_left]
  rfl

theorem readStatusUpdate_statusPayload (u : Username) (status : UserStatus) :
    readStatusUpdate (statusPayload u status) = some (u, status.code) := by
  have hread := readEntry_append u status []
  rw [List.append_nil] at hread
  rw [readStatusUpdate, hread]
  rfl

theorem readEntries_userEntry (users : List UserRecord) (rest : Bytes) :
    readEntries users.length (users.flatMap userEntry ++ rest) = some (users.map entryOf) := by
  induction users with
  | nil => rfl
  | cons u users ih =>
    have hread : readEntry (userEntry u ++ (users.flatMap userEntry ++ rest)) = _ :=
      readEntry_append u.username u.status _
    rw [List.flatMap_cons, List.append_assoc, List.length_cons, readEntries, hread]
    dsimp only
    rw [ih]
    rfl

theorem readUserList_listPayload (users : List UserRecord) (h : users.length < 2 ^ 16) :
    readUserList (listPayload users) = some (users.map entryOf) := by
  have hcount : BigEndian.value (BigEndian.bytes 2 users.length) = users.length :=
    BigEndian.value_bytes_of_lt h
  have hentries := readEntries_userEntry users []
  rw [List.append_nil] at hentries
  rw [readUserList, listPayload, List.take_left' (BigEndian.bytes_length 2 _),
    List.drop_left' (BigEndian.bytes_length 2 _), hcount, hentries]

end CChat.Server.Displays
