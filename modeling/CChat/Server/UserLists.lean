import CChat.Server.Encoders
import CChat.Server.Registry

namespace CChat.Server.UserLists

open CChat.Library CChat.Library.Buffers CChat.Library.Fields CChat.Protocol.Types State Network
  Users Handlers History Invariants Registry Encoders

def totalSize (s : ServerState) : ℕ :=
  (List.range s.userCount).foldl (fun total i ↦
    if (s.users i).isRegistered then total + (1 + (s.users i).username.bytes.length + 1)
    else total) 2

structure Listing where
  response : Cells UInt8
  userCount : UInt16
  offset : ℕ

def listUser (s : ServerState) (l : Listing) (i : ℕ) : Option Listing :=
  let u := s.users i
  if u.isRegistered then
    let usernameLen := u.username.bytes.length
    (fill [(l.offset, [UInt8.ofNat usernameLen]), (l.offset + 1, u.username.bytes),
        (l.offset + 1 + usernameLen, [u.status.code])] l.response).map fun response ↦
      ⟨response, l.userCount + 1, l.offset + (1 + usernameLen + 1)⟩
  else some l

/-- `response` and `offset` as they are given to `send_network_message`. -/
def listUsers (s : ServerState) : Option Listing :=
  ((List.range s.userCount).foldlM (listUser s) ⟨fresh (totalSize s), 0, 2⟩).bind fun l ↦
    (fill (storeHalf 0 l.userCount) l.response).map fun response ↦ { l with response := response }

def status : Reader UserStatus := fun bs ↦
  (block 1 bs).bind fun p ↦ (UserStatus.ofByte (p.1.headD 0)).map fun s ↦ (s, p.2)

def listedUser : Reader (Bytes × UserStatus) := fun bs ↦
  (counted 1 bs).bind fun name ↦ (status name.2).map fun s ↦ ((name.1, s.1), s.2)

def decodeUserList (payload : Bytes) : Option (List (Bytes × UserStatus)) :=
  whole (fun bs ↦ (number 2 bs).bind fun count ↦ repeated listedUser count.1 count.2) payload

def users (s : ServerState) : List (Bytes × UserStatus) :=
  (registered s).map fun u ↦ (u.username.bytes, u.status)

def userListPayload (s : ServerState) : Bytes :=
  BigEndian.bytes 2 (registered s).length ++ (registered s).flatMap userEntry

def among (s : ServerState) (is : List ℕ) : List UserRecord :=
  (is.map s.users).filter (fun u ↦ u.isRegistered)

variable {s s' : ServerState} {verify : Signature → Challenge → Key → Bool}

theorem userEntry_length (u : UserRecord) :
    (userEntry u).length = 1 + u.username.bytes.length + 1 := by
  simp only [userEntry, List.length_append, List.length_cons, List.length_nil]
  omega

theorem among_cons_registered {i : ℕ} {is : List ℕ} (h : (s.users i).isRegistered = true) :
    among s (i :: is) = s.users i :: among s is := by
  rw [among, List.map_cons, List.filter_cons_of_pos h]
  rfl

theorem among_cons_unregistered {i : ℕ} {is : List ℕ} (h : (s.users i).isRegistered = false) :
    among s (i :: is) = among s is := by
  rw [among, List.map_cons, List.filter_cons_of_neg (by rw [h]; decide)]
  rfl

theorem sizes_among (is : List ℕ) (total : ℕ) :
    is.foldl (fun total i ↦
      if (s.users i).isRegistered then total + (1 + (s.users i).username.bytes.length + 1)
      else total) total = total + ((among s is).flatMap userEntry).length := by
  induction is generalizing total with
  | nil => rfl
  | cons i is ih =>
    rw [List.foldl_cons, ih]
    cases h : (s.users i).isRegistered with
    | true =>
      rw [among_cons_registered h, List.flatMap_cons, List.length_append, userEntry_length,
        if_pos rfl, Nat.add_assoc]
    | false => rw [among_cons_unregistered h, if_neg (by decide)]

theorem totalSize_eq (s : ServerState) :
    totalSize s = 2 + ((registered s).flatMap userEntry).length := sizes_among _ _

/-- A turn appends the entry of its user to what is filled already. -/
theorem listUser_registered {i : ℕ} (h : (s.users i).isRegistered = true) (front : Cells UInt8)
    (count : UInt16) (k : ℕ) :
    listUser s ⟨front ++ fresh ((userEntry (s.users i)).length + k), count, front.length⟩ i =
      some ⟨front ++ (userEntry (s.users i)).map some ++ fresh k, count + 1,
        (front ++ (userEntry (s.users i)).map some).length⟩ := by
  have hstores : Consecutive front.length [(front.length,
      [UInt8.ofNat (s.users i).username.bytes.length]),
      (front.length + 1, (s.users i).username.bytes),
      (front.length + 1 + (s.users i).username.bytes.length, [(s.users i).status.code])] := by
    simp [Consecutive]
  have hfill := fill_consecutive front (fresh k) (fresh (userEntry (s.users i)).length) rfl
    hstores (by
      rw [fresh, List.length_replicate, userEntry_length]
      simp [written]
      omega)
  have hfresh : (fresh (userEntry (s.users i)).length : Cells UInt8) ++ fresh k =
      fresh ((userEntry (s.users i)).length + k) := List.replicate_append_replicate
  rw [hfresh] at hfill
  unfold listUser
  dsimp only
  rw [if_pos h, hfill, Option.map_some]
  congr 1
  simp [written, userEntry]
  omega

/-- The second loop from any turn on: the entries of the users that are left
fill the room that is left for them. -/
theorem listUsers_loop (is : List ℕ) (front : Cells UInt8) (count : UInt16) (k : ℕ) :
    is.foldlM (listUser s)
        ⟨front ++ fresh (((among s is).flatMap userEntry).length + k), count, front.length⟩ =
      some ⟨front ++ ((among s is).flatMap userEntry).map some ++ fresh k,
        count + UInt16.ofNat (among s is).length,
        (front ++ ((among s is).flatMap userEntry).map some).length⟩ := by
  induction is generalizing front count with
  | nil => simp [among]
  | cons i is ih =>
    rw [List.foldlM_cons]
    cases h : (s.users i).isRegistered with
    | true =>
      have hturn := listUser_registered h front count
        (((among s is).flatMap userEntry).length + k)
      have hrest := ih (front ++ (userEntry (s.users i)).map some) (count + 1)
      rw [among_cons_registered h, List.flatMap_cons, List.length_append, Nat.add_assoc, hturn]
      simp only [Option.bind_eq_bind, Option.bind_some, hrest]
      simp [UInt16.ofNat_add, UInt16.add_assoc, UInt16.add_comm]
    | false =>
      rw [among_cons_unregistered h]
      have hturn : listUser s ⟨front ++ fresh (((among s is).flatMap userEntry).length + k), count,
          front.length⟩ i = some ⟨front ++ fresh (((among s is).flatMap userEntry).length + k),
            count, front.length⟩ := by
        simp [listUser, h]
      rw [hturn]
      exact ih front count

theorem registered_length_le (s : ServerState) : (registered s).length ≤ s.userCount := by
  refine Nat.le_trans (List.length_filter_le _ _) ?_
  rw [List.length_map, List.length_range]

/-- The second loop from its start: two bytes are left for the count. -/
theorem listUsers_entries (s : ServerState) :
    (List.range s.userCount).foldlM (listUser s) ⟨fresh (totalSize s), 0, 2⟩ =
      some ⟨fresh 2 ++ ((registered s).flatMap userEntry).map some,
        UInt16.ofNat (registered s).length, totalSize s⟩ := by
  have hloop := @listUsers_loop s (List.range s.userCount) (fresh 2) 0 0
  have hall : among s (List.range s.userCount) = registered s := rfl
  have hroom : (fresh 2 : Cells UInt8) ++ fresh (((registered s).flatMap userEntry).length + 0) =
      fresh (totalSize s) := by
    rw [totalSize_eq]
    exact List.replicate_append_replicate
  have hoffset : (fresh 2 ++ ((registered s).flatMap userEntry).map some).length = totalSize s := by
    rw [totalSize_eq, List.length_append, List.length_map]
    rfl
  have htwo : (fresh 2 : Cells UInt8).length = 2 := rfl
  rw [hall, hroom, hoffset, htwo, UInt16.zero_add] at hloop
  simpa only [fresh, List.replicate_zero, List.append_nil] using hloop

theorem listUsers_eq (s : ServerState) : listUsers s =
    some ⟨(BigEndian.bytes 2 (UInt16.ofNat (registered s).length).toNat ++
        (registered s).flatMap userEntry).map some,
      UInt16.ofNat (registered s).length, totalSize s⟩ := by
  have hstores : Consecutive 0 (storeHalf 0 (UInt16.ofNat (registered s).length)) := by
    simp [storeHalf, Consecutive]
  have hheader := fill_consecutive [] (((registered s).flatMap userEntry).map some) (fresh 2) rfl
    hstores (by
      rw [storeHalf_written, BigEndian.bytes_length]
      rfl)
  rw [List.nil_append, List.nil_append, storeHalf_written] at hheader
  rw [listUsers, listUsers_entries, Option.bind_some]
  dsimp only
  rw [hheader, Option.map_some, List.map_append]

theorem status_append (t : UserStatus) (rest : Bytes) :
    status ([t.code] ++ rest) = some (t, rest) := by
  have hblock := block_append [t.code] rest
  have hcode : UserStatus.ofByte t.code = some t := by cases t <;> rfl
  rw [List.length_singleton] at hblock
  rw [status, hblock, Option.bind_some]
  dsimp only
  rw [List.headD_cons, hcode]
  rfl

theorem listedUser_append (u : UserRecord) (rest : Bytes) :
    listedUser (userEntry u ++ rest) = some ((u.username.bytes, u.status), rest) := by
  have hlength : u.username.bytes.length < 256 ^ 1 := Nat.lt_trans u.username.fits (by decide)
  have hname := counted_append hlength ([u.status.code] ++ rest)
  have hentry : userEntry u ++ rest = BigEndian.bytes 1 u.username.bytes.length ++
      (u.username.bytes ++ ([u.status.code] ++ rest)) := by
    simp [userEntry, BigEndian.bytes]
  rw [listedUser, hentry, hname, Option.bind_some]
  dsimp only
  rw [status_append]
  rfl

theorem decodeUserList_payload {s : ServerState} (h : (registered s).length < 2 ^ 16) :
    decodeUserList (userListPayload s) = some (users s) := by
  refine whole_of_append ?_
  have hentries := @repeated_flatMap _ _ listedUser userEntry
    (fun u ↦ (u.username.bytes, u.status)) (registered s) (fun u _ rest ↦ listedUser_append u rest) []
  rw [userListPayload, List.append_assoc, number_append h, Option.bind_some]
  exact hentries

example : decodeUserList [0, 1, 5, 0x61, 0x6C, 0x69, 0x63, 0x65, 1] =
    some [(text "alice", .online)] := by decide

/-- The second loop ends where the allocation does and leaves no byte of it
unwritten; a store behind its end would leave no listing at all. -/
structure Filled (s : ServerState) (l : Listing) : Prop where
  listed : listUsers s = some l
  offset : l.offset = totalSize s
  length : l.response.length = totalSize s
  stored : ∀ cell ∈ l.response, cell.isSome = true
  sent : read l.offset l.response = some (userListPayload s)
  counted : l.userCount.toNat = (users s).length

/-- The answer to `LIST_USERS` gives the table: every registered user once, in
the order of the records, with the status of the record. -/
structure Lists (s : ServerState) : Prop where
  filled : ∃ l, Filled s l
  answered : ∀ w i, w.server = s → (malloc w).1 = true →
    handleListUsers w i = reply (malloc w).2 i .userListResponse (userListPayload s)
  count : BigEndian.value ((userListPayload s).take 2) = (users s).length
  decoded : decodeUserList (userListPayload s) = some (users s)
  ordered : users s = (List.range s.userCount).map
    (fun k ↦ ((s.users k).username.bytes, (s.users k).status))
  once : ((users s).map Prod.fst).Nodup
  known : ∀ name : Username, name.bytes ∈ (users s).map Prod.fst ↔ (findUser s name).isSome = true

theorem users_length (s : ServerState) : (users s).length = (registered s).length :=
  List.length_map _

theorem userListPayload_length (s : ServerState) : (userListPayload s).length = totalSize s := by
  rw [userListPayload, List.length_append, BigEndian.bytes_length, totalSize_eq]

theorem filled_exists {s : ServerState} (h : (registered s).length < 2 ^ 16) : ∃ l, Filled s l := by
  have hcount : (UInt16.ofNat (registered s).length).toNat = (registered s).length := by
    rw [UInt16.toNat_ofNat', Nat.mod_eq_of_lt h]
  have heq := listUsers_eq s
  rw [hcount] at heq
  have hlength : ((userListPayload s).map some).length = totalSize s := by
    rw [List.length_map, userListPayload_length]
  refine ⟨_, heq, rfl, hlength, ?_, ?_, hcount.trans (users_length s).symm⟩
  · intro cell hcell
    obtain ⟨b, _, rfl⟩ := List.mem_map.mp hcell
    rfl
  · have hread := read_whole (userListPayload s)
    rwa [userListPayload_length] at hread

theorem Enrolled.registered_eq (h : Enrolled s) :
    registered s = (List.range s.userCount).map s.users := by
  refine List.filter_eq_self.mpr (fun u hu ↦ ?_)
  obtain ⟨k, hk, rfl⟩ := List.mem_map.mp hu
  exact (h.registered k).mpr (List.mem_range.mp hk)

theorem Enrolled.users_eq (h : Enrolled s) : users s = (List.range s.userCount).map
    (fun k ↦ ((s.users k).username.bytes, (s.users k).status)) := by
  rw [users, Enrolled.registered_eq h, List.map_map]
  rfl

theorem Enrolled.names_eq (h : Enrolled s) :
    (users s).map Prod.fst = (List.range s.userCount).map (fun k ↦ (s.users k).username.bytes) := by
  rw [Enrolled.users_eq h, List.map_map]
  rfl

theorem Enrolled.lists (h : Enrolled s) : Lists s := by
  have hfits : (registered s).length < 2 ^ 16 :=
    Nat.lt_of_le_of_lt ((registered_length_le s).trans h.count_le) (by decide)
  refine ⟨filled_exists hfits, ?_, ?_, decodeUserList_payload hfits, Enrolled.users_eq h, ?_, ?_⟩
  · rintro w i rfl hroom
    rw [handleListUsers, hroom, if_neg (by decide)]
    rfl
  · have htake : (userListPayload s).take 2 = BigEndian.bytes 2 (registered s).length := by
      rw [userListPayload, List.take_left' (BigEndian.bytes_length 2 _)]
    rw [htake, BigEndian.value_bytes_of_lt hfits, users_length]
  · rw [Enrolled.names_eq h]
    refine List.Nodup.map_on (fun k hk l hl hname ↦ ?_) List.nodup_range
    exact h.distinct k l (List.mem_range.mp hk) (List.mem_range.mp hl) (CString.ext hname)
  · intro name
    rw [Enrolled.names_eq h, Option.isSome_iff_exists, List.mem_map]
    constructor
    · rintro ⟨k, hk, hname⟩
      exact ⟨k, h.find_iff.mpr ⟨List.mem_range.mp hk, CString.ext hname⟩⟩
    · rintro ⟨k, hk⟩
      obtain ⟨hlt, rfl⟩ := h.find_iff.mp hk
      exact ⟨k, List.mem_range.mpr hlt, rfl⟩

/-- Names that are listed once are listed at the same places ever after. -/
theorem Extends.names_prefix (h : Extends s s') (hs : Enrolled s) (hs' : Enrolled s') :
    (users s).map Prod.fst <+: (users s').map Prod.fst := by
  obtain ⟨d, hd⟩ := Nat.exists_eq_add_of_le h.count_le
  have hsame : (List.range s.userCount).map (fun k ↦ (s'.users k).username.bytes) =
      (List.range s.userCount).map (fun k ↦ (s.users k).username.bytes) :=
    List.map_congr_left (fun k hk ↦ by rw [h.username k (List.mem_range.mp hk)])
  rw [Enrolled.names_eq hs, Enrolled.names_eq hs', hd, List.range_add, List.map_append, hsame]
  exact List.prefix_append _ _

/-- The user list encodes the registry that a run leaves, and a longer run only
appends to the names. -/
theorem user_list_encodes (verify : Signature → Challenge → Key → Bool) (xs : List Loop.Input) :
    Lists (Loop.reach verify xs).server ∧
      ∀ ys, (users (Loop.reach verify xs).server).map Prod.fst <+:
        (users (Loop.reach verify (xs ++ ys)).server).map Prod.fst := by
  refine ⟨Enrolled.lists (reach_enrolled xs), fun ys ↦ ?_⟩
  have hrun : Loop.reach verify (xs ++ ys) =
      Runs.run (Loop.step verify) (Loop.reach verify xs) ys := List.foldl_append
  have hextends := @run_extends verify _ (@reach_steady verify xs) ys
  rw [← hrun] at hextends
  exact Extends.names_prefix hextends (reach_enrolled xs) (reach_enrolled (xs ++ ys))

end CChat.Server.UserLists
