import Callifornia.Names
import Callifornia.Signaling.SfuEvents

/-! # Sessions in rooms and registered peers

A session that is in a room has its peer registered on the node, or else it can neither hear
nor be heard there. Whoever leaves, leaves the room and the registry; a peer whose channel
refuses a message is only taken out of the registry.
-/

namespace Callifornia.Seats

open Concurrency Concurrency.Program FiniteMap Store Signaling

/-! ## Who sits where -/

/-- The node has the session in this room under this nickname. -/
def Sits (node : NodeId) (roster : Roster) (sessionId : SessionId) (roomId : RoomId)
    (nickname : Nickname) : Prop :=
  roster.known node sessionId = some ⟨nickname, some roomId⟩

instance (node : NodeId) (roster : Roster) (sessionId : SessionId) (roomId : RoomId)
    (nickname : Nickname) : Decidable (Sits node roster sessionId roomId nickname) :=
  inferInstanceAs (Decidable (_ = _))

/-- **Every session in a room has its nickname registered there**, in Redis and at the node. -/
structure AllRegistered (node : NodeId) (roster : Roster) : Prop where
  recorded : ∀ sessionId roomId, roster.room sessionId = some roomId →
    (roomId, roster.named sessionId) ∈ roster.peers node
  remembered : ∀ sessionId session roomId, roster.known node sessionId = some session →
    session.roomId = some roomId → (roomId, session.nickname) ∈ roster.peers node

/-- The node knows who is in a room, and no two sessions are in one room under one nickname.
Everybody is registered, but for a session that is about to be. -/
structure Seated (node : NodeId) (standing : Option SessionId) (roster : Roster) : Prop where
  recorded : ∀ sessionId roomId, roster.room sessionId = some roomId →
    Sits node roster sessionId roomId (roster.named sessionId)
  member : ∀ sessionId roomId nickname, Sits node roster sessionId roomId nickname →
    (roomId, nickname) ∈ roster.members
  apart : ∀ first second roomId nickname, Sits node roster first roomId nickname →
    Sits node roster second roomId nickname → first = second
  registered : ∀ sessionId roomId nickname, Sits node roster sessionId roomId nickname →
    standing ≠ some sessionId → (roomId, nickname) ∈ roster.peers node

variable {node : NodeId} {standing : Option SessionId} {before after roster : Roster}
  {connection : ConnectionId} {sessionId : SessionId} {session : SessionState} {roomId : RoomId}
  {nickname : Nickname}

/-- When no session is about to be registered, all who sit are registered. -/
theorem Seated.allRegistered (seated : Seated node none roster) : AllRegistered node roster where
  recorded sessionId roomId room :=
    seated.registered sessionId roomId _ (seated.recorded sessionId roomId room) nofun
  remembered sessionId session roomId known inside := by
    refine seated.registered sessionId roomId session.nickname ?_ nofun
    rw [Sits, known, ← inside]

/-- Nobody is in a room. -/
structure Empty (node : NodeId) (roster : Roster) : Prop where
  recorded : ∀ sessionId, roster.room sessionId = none
  remembered : ∀ sessionId roomId nickname, ¬ Sits node roster sessionId roomId nickname

/-- An empty node seats nobody wrongly. -/
theorem Empty.seated (empty : Empty node roster) : Seated node standing roster where
  recorded sessionId roomId room := by
    rw [empty.recorded] at room
    cases room
  member sessionId roomId nickname sits := absurd sits (empty.remembered sessionId roomId nickname)
  apart first second roomId nickname sits := absurd sits (empty.remembered first roomId nickname)
  registered sessionId roomId nickname sits :=
    absurd sits (empty.remembered sessionId roomId nickname)

/-! ## Sessions that stay or leave -/

/-- Some sessions may have left their rooms; the others are where they were. -/
structure Stays (node : NodeId) (before after : Roster) : Prop where
  sits : ∀ sessionId roomId nickname, Sits node after sessionId roomId nickname →
    Sits node before sessionId roomId nickname ∧
      ((roomId, nickname) ∈ before.members → (roomId, nickname) ∈ after.members) ∧
      ((roomId, nickname) ∈ before.peers node → (roomId, nickname) ∈ after.peers node)
  room : ∀ sessionId roomId, after.room sessionId = some roomId →
    before.room sessionId = some roomId ∧ after.named sessionId = before.named sessionId ∧
      after.known node sessionId = before.known node sessionId

/-- Whoever sits stays seated where others stay. -/
theorem Seated.stays (seated : Seated node standing before) (stays : Stays node before after) :
    Seated node standing after where
  recorded sessionId roomId room := by
    obtain ⟨room, named, known⟩ := stays.room sessionId roomId room
    rw [Sits, named, known]
    exact seated.recorded sessionId roomId room
  member sessionId roomId nickname sits := by
    obtain ⟨sits, member, -⟩ := stays.sits sessionId roomId nickname sits
    exact member (seated.member sessionId roomId nickname sits)
  apart first second roomId nickname one two :=
    seated.apart first second roomId nickname (stays.sits first roomId nickname one).1
      (stays.sits second roomId nickname two).1
  registered sessionId roomId nickname sits seat := by
    obtain ⟨sits, -, peer⟩ := stays.sits sessionId roomId nickname sits
    exact peer (seated.registered sessionId roomId nickname sits seat)

/-- Two changes that leave everybody seated. -/
theorem Stays.trans {first second third : Roster} (one : Stays node first second)
    (two : Stays node second third) : Stays node first third where
  sits sessionId roomId nickname sits := by
    obtain ⟨sits, member, peer⟩ := two.sits sessionId roomId nickname sits
    obtain ⟨sits, member', peer'⟩ := one.sits sessionId roomId nickname sits
    exact ⟨sits, member ∘ member', peer ∘ peer'⟩
  room sessionId roomId room := by
    obtain ⟨room, named, known⟩ := two.room sessionId roomId room
    obtain ⟨room, named', known'⟩ := one.room sessionId roomId room
    exact ⟨room, named.trans named', known.trans known'⟩

/-- Nothing that concerns sessions in rooms has changed. -/
theorem stays_of_same (sessions : after.sessions = before.sessions)
    (known : ∀ sessionId, after.known node sessionId = before.known node sessionId)
    (members : before.members ⊆ after.members)
    (peers : ∀ place, place ∈ before.peers node → place ∈ after.peers node) :
    Stays node before after where
  sits sessionId roomId nickname sits := by
    rw [Sits, known] at sits
    exact ⟨sits, fun member => members member, peers _⟩
  room sessionId roomId room := by
    refine ⟨?_, ?_, known sessionId⟩
    · unfold Roster.room at room ⊢
      rwa [sessions] at room
    · unfold Roster.named
      rw [sessions]

/-- Nobody has moved. -/
theorem Stays.refl (roster : Roster) : Stays node roster roster :=
  stays_of_same rfl (fun _ => rfl) (Finset.Subset.refl _) fun _ => id

/-- Attaching a connection moves nobody. -/
theorem stays_attach (sessionId : Option SessionId) :
    Stays node roster (roster.attach connection sessionId) :=
  stays_of_same rfl (fun _ => rfl) (Finset.Subset.refl _) fun _ => id

/-- Drawing an id moves nobody. -/
theorem stays_draw (drawn : String) : Stays node roster (roster.draw drawn) :=
  stays_of_same rfl (fun _ => rfl) (Finset.Subset.refl _) fun _ => id

/-- Binding a room moves nobody. -/
theorem stays_bind {ownerHost ownerPort ownerId : String} {best : SfuInstance} :
    Stays node roster (roster.bind roomId ownerHost ownerPort ownerId best) :=
  stays_of_same rfl (fun _ => rfl) (Finset.Subset.refl _) fun _ => id

/-- Closing a room moves nobody. -/
theorem stays_close : Stays node roster (roster.close roomId) :=
  stays_of_same rfl (fun _ => rfl) (Finset.Subset.refl _) fun _ => id

/-- Releasing a nickname moves nobody. -/
theorem stays_release (nickname : Nickname) (sessionId : SessionId) :
    Stays node roster (roster.release nickname sessionId) :=
  stays_of_same rfl (fun _ => rfl) (Finset.Subset.refl _) fun _ => id

/-- A field that is neither the nickname nor the room. -/
theorem stays_hset {field value : String} (nickname : field ≠ "nickname")
    (room : field ≠ "room_id") : Stays node roster (roster.hset sessionId field value) where
  sits _ _ _ sits := ⟨sits, id, id⟩
  room query roomId inside := by
    rw [Roster.room_hset room] at inside
    exact ⟨inside, Roster.named_hset nickname query, rfl⟩

/-- A deleted session is in no room. -/
theorem stays_deleteSession : Stays node roster (roster.deleteSession sessionId) where
  sits _ _ _ sits := ⟨sits, id, id⟩
  room query roomId inside := by
    have other : query ≠ sessionId := by
      rintro rfl
      simp only [Roster.room, Roster.deleteSession, Function.update_self, Option.bind_none,
        Option.filter_none, reduceCtorEq] at inside
    have same : (roster.deleteSession sessionId).sessions query = roster.sessions query :=
      Function.update_of_ne other _ _
    refine ⟨?_, ?_, rfl⟩
    · simp only [Roster.room, same] at inside
      exact inside
    · simp only [Roster.named, same]

/-- The node forgets a session that is in no room. -/
theorem stays_remove (out : roster.room sessionId = none) :
    Stays node roster (roster.withSessions node (·.remove sessionId)) where
  sits query roomId nickname sits := by
    rw [Sits, Roster.known_withSessions, if_pos rfl, SessionStore.lookup_remove] at sits
    rw [Roster.peers_withSessions]
    split at sits
    · cases sits
    · exact ⟨sits, id, id⟩
  room query roomId room := by
    refine ⟨room, rfl, ?_⟩
    have other : query ≠ sessionId := by
      rintro rfl
      rw [show roster.room query = some roomId from room] at out
      cases out
    rw [Roster.known_withSessions, if_pos rfl, SessionStore.lookup_remove, if_neg other]
    rfl

/-- A session that is checked is known to the node as it was read. -/
theorem known_check (query : SessionId) :
    (roster.check node connection sessionId session).known node query =
      if query = sessionId then some session else roster.known node query := by
  rw [Roster.check, Roster.known_withSessions, if_pos rfl, SessionStore.lookup_upsert]
  rfl

/-- The node remembers the room it sets. -/
theorem known_setRoom (room : Option RoomId) (query : SessionId) :
    (roster.setRoom node sessionId room).known node query =
      if query = sessionId then (roster.known node sessionId).map ({ · with roomId := room })
      else roster.known node query := by
  rw [Roster.setRoom, Roster.known_withSessions, if_pos rfl, SessionStore.lookup_setRoom]
  rfl

/-- Setting a room changes no registry. -/
theorem peers_setRoom (room : Option RoomId) :
    (roster.setRoom node sessionId room).peers node = roster.peers node := by
  rw [Roster.setRoom, Roster.peers_withSessions]
  rfl

/-- The node looks a session up. -/
theorem Seated.check (seated : Seated node standing roster)
    (named : session.nickname = roster.named sessionId)
    (room : session.roomId = roster.room sessionId) :
    Stays node roster (roster.check node connection sessionId session) := by
  refine ⟨fun query roomId nickname sits => ?_, fun query roomId inside => ?_⟩
  · rw [Roster.check, Roster.peers_withSessions]
    refine ⟨?_, id, id⟩
    rw [Sits, known_check] at sits
    split at sits
    · rename_i same
      cases sits
      rw [same, show nickname = roster.named sessionId from named]
      exact seated.recorded sessionId roomId room.symm
    · exact sits
  · refine ⟨inside, rfl, ?_⟩
    rw [known_check]
    split
    · rename_i same
      subst same
      have sits := seated.recorded query roomId inside
      rw [Sits, ← named, show some roomId = session.roomId from (room.trans inside).symm] at sits
      exact sits.symm
    · rfl

/-- The session is in no room any more. -/
theorem room_leave (victims : List Nickname) :
    (roster.leave node sessionId roomId nickname victims).room sessionId = none := by
  rw [Roster.leave, Roster.room_setRoom none nofun, if_pos rfl]

/-- No peer is detached besides the one that leaves. -/
theorem leave_nil : roster.leave node sessionId roomId nickname [] =
    (roster.detach node roomId nickname).setRoom node sessionId none := rfl

/-- A session leaves the room it is in. -/
theorem Seated.leave (seated : Seated node standing roster)
    (sits : Sits node roster sessionId roomId nickname) :
    Stays node roster (roster.leave node sessionId roomId nickname []) := by
  have keeps : Roster.Keeps roster (roster.detach node roomId nickname) := Roster.keeps_detach
  rw [leave_nil]
  refine ⟨fun query place name stays => ?_, fun query place room => ?_⟩
  · rw [Sits, known_setRoom] at stays
    split at stays
    · obtain ⟨session, -, gone⟩ := Option.map_eq_some_iff.mp stays
      cases gone
    rename_i other
    rw [keeps.known] at stays
    have elsewhere : (place, name) ≠ (roomId, nickname) := by
      intro same
      cases same
      exact other (seated.apart query sessionId _ _ stays sits)
    refine ⟨stays, fun member => ?_, fun peer => ?_⟩
    · change (place, name) ∈ (roster.detach node roomId nickname).members
      rw [Roster.members_detach]
      split
      · exact Finset.mem_erase.mpr ⟨elsewhere, member⟩
      · exact member
    · rw [peers_setRoom, Roster.peers_detach, if_pos rfl]
      exact Finmap.mem_erase.mpr ⟨elsewhere, peer⟩
  · rw [Roster.room_setRoom none nofun] at room
    split at room
    · cases room
    rename_i other
    refine ⟨?_, ?_, ?_⟩
    · unfold Roster.room at room ⊢
      rwa [keeps.sessions] at room
    · rw [Roster.named_setRoom]
      unfold Roster.named
      rw [keeps.sessions]
    · rw [known_setRoom, if_neg other, keeps.known]

/-- The node knows what it has looked up. -/
theorem sits_check (room : session.roomId = some roomId) :
    Sits node (roster.check node connection sessionId session) sessionId roomId
      session.nickname := by
  rw [Sits, known_check, if_pos rfl, ← room]

/-! ## A session that enters a room -/

/-- Whoever has a room after one is set has that one, or had it before. -/
theorem room_setRoom_some {query : SessionId} {place : RoomId}
    (room : (roster.setRoom node sessionId (some roomId)).room query = some place) :
    (query = sessionId ∧ place = roomId) ∨
      (query ≠ sessionId ∧ roster.room query = some place) := by
  change ((roster.hset sessionId "room_id" roomId).sessions query |>.bind
    (·.get "room_id")).filter (· ≠ "") = _ at room
  rw [Roster.get_hset] at room
  split at room
  · rename_i same
    obtain ⟨found, -⟩ := Option.filter_eq_some_iff.mp room
    exact .inl ⟨same.1, (Option.some.inj found).symm⟩
  · rename_i other
    exact .inr ⟨fun same => other ⟨same, rfl⟩, room⟩

/-- A session that enters a room sits there. -/
theorem sits_enter {sfuAddr : Address}
    (known : roster.known node sessionId = some ⟨nickname, none⟩) :
    Sits node ((roster.enter sfuAddr roomId nickname).setRoom node sessionId (some roomId))
      sessionId roomId nickname := by
  have known : (roster.enter sfuAddr roomId nickname).known node sessionId =
      some ⟨nickname, none⟩ := known
  rw [Sits, known_setRoom, if_pos rfl, known]
  rfl

/-- A session in no room becomes a member of one; its peer is still to be registered. -/
theorem Seated.enter {sfuAddr : Address} (seated : Seated node none roster)
    (known : roster.known node sessionId = some ⟨nickname, none⟩)
    (named : nickname = roster.named sessionId) (absent : (roomId, nickname) ∉ roster.members) :
    Seated node (some sessionId)
      ((roster.enter sfuAddr roomId nickname).setRoom node sessionId (some roomId)) := by
  have known : (roster.enter sfuAddr roomId nickname).known node sessionId =
      some ⟨nickname, none⟩ := known
  have sits_cases (query : SessionId) (place : RoomId) (name : Nickname)
      (sits : Sits node ((roster.enter sfuAddr roomId nickname).setRoom node sessionId
        (some roomId)) query place name) :
      (query = sessionId ∧ place = roomId ∧ name = nickname) ∨
        (query ≠ sessionId ∧ Sits node roster query place name) := by
    rw [Sits, known_setRoom] at sits
    split at sits
    · rename_i same
      rw [known] at sits
      cases sits
      exact .inl ⟨same, rfl, rfl⟩
    · rename_i other
      exact .inr ⟨other, sits⟩
  constructor
  · intro query place room
    rw [Roster.named_setRoom]
    rcases room_setRoom_some room with ⟨rfl, rfl⟩ | ⟨other, room⟩
    · have named : nickname = (roster.enter sfuAddr place nickname).named query := named
      rw [← named]
      exact sits_enter known
    · rw [Sits, known_setRoom, if_neg other]
      exact seated.recorded query place room
  · intro query place name sits
    refine Finset.mem_insert.mpr ?_
    rcases sits_cases query place name sits with ⟨-, rfl, rfl⟩ | ⟨-, sits⟩
    · exact .inl rfl
    · exact .inr (seated.member query place name sits)
  · intro first second place name one two
    rcases sits_cases first place name one with ⟨own, rfl, rfl⟩ | ⟨-, before⟩
    · rcases sits_cases second place name two with ⟨same, -⟩ | ⟨-, before⟩
      · rw [own, same]
      · exact absurd (seated.member second place name before) absent
    · rcases sits_cases second place name two with ⟨-, rfl, rfl⟩ | ⟨-, before'⟩
      · exact absurd (seated.member first place name before) absent
      · exact seated.apart first second place name before before'
  · intro query place name sits other
    rw [peers_setRoom]
    rcases sits_cases query place name sits with ⟨rfl, -⟩ | ⟨-, sits⟩
    · exact absurd rfl other
    · exact seated.registered query place name sits nofun

/-- A peer is registered, and its session has its seat. -/
theorem Seated.register {entry : PeerEntry} (seated : Seated node (some sessionId) roster)
    (sits : Sits node roster sessionId roomId nickname) :
    Seated node none (roster.register node roomId nickname entry) := by
  have known (query : SessionId) : (roster.register node roomId nickname entry).known node query =
      roster.known node query := Roster.keeps_withPeers.known node query
  constructor
  · intro query place room
    rw [Sits, known]
    exact seated.recorded query place room
  · intro query place name inside
    rw [Sits, known] at inside
    exact seated.member query place name inside
  · intro first second place name one two
    rw [Sits, known] at one two
    exact seated.apart first second place name one two
  · intro query place name inside _
    rw [Sits, known] at inside
    rw [Roster.peers_register, if_pos rfl]
    refine Finmap.mem_insert.mpr ?_
    by_cases own : query = sessionId
    · rw [own, sits] at inside
      cases inside
      exact .inl rfl
    · refine .inr (seated.registered query place name inside fun same => ?_)
      exact own (Option.some.inj same).symm

/-! ## What the actions do while no channel refuses a message -/

/-- Every channel accepts. -/
def Willing : Accepting := fun _ _ => True

/-- Where every channel accepts nobody refuses. -/
theorem nil_of_refusing {victims : List Nickname}
    (refusing : Refusing Willing node roomId roster victims) : victims = [] := by
  refine List.eq_nil_iff_forall_not_mem.mpr fun nickname member => ?_
  obtain ⟨entry, -, refuses⟩ := refusing nickname member
  exact refuses trivial

/-- The check of a session moves nobody. -/
theorem Seated.checked (seated : Seated node standing roster)
    (checked : Checked roster connection sessionId session) :
    Stays node roster (roster.check node connection sessionId session) := by
  obtain ⟨-, named, room⟩ := Roster.session_eq_some.mp checked.found
  exact seated.check named room

/-- A request that moves nobody leaves everybody seated. -/
theorem Seated.unmoved (seated : Seated node standing before)
    (unmoved : Signaling.Unmoved node connection sessionId before after) :
    Stays node before after := by
  rcases unmoved with rfl | ⟨session, checked, rfl⟩
  · exact .refl _
  · exact seated.checked checked

/-- A session that has been looked up leaves its room. -/
theorem Seated.checkedOut (seated : Seated node standing roster)
    (checked : Checked roster connection sessionId session) (room : session.roomId = some roomId) :
    Stays node roster ((roster.check node connection sessionId session).leave node sessionId roomId
      session.nickname []) := by
  have stays := seated.checked checked
  exact stays.trans ((seated.stays stays).leave (sits_check room))

/-- A session in no room is given up. -/
theorem stays_logout (out : roster.room sessionId = none) :
    Stays node roster (roster.logout node connection sessionId nickname) := by
  have released : Stays node roster ((roster.release nickname sessionId).deleteSession sessionId) :=
    (stays_release nickname sessionId).trans stays_deleteSession
  have gone : ((roster.release nickname sessionId).deleteSession sessionId).room sessionId =
      none := by
    cases room : ((roster.release nickname sessionId).deleteSession sessionId).room sessionId with
    | none => rfl
    | some roomId =>
        have before := (released.room sessionId roomId room).1
        rw [out] at before
        cases before
  exact (released.trans (stays_remove gone)).trans (stays_attach none)

variable {state : State} {result : Except WsHandlerError Unit} {request : ClientMessage}
  {regular : Prop}

/-- What a request leaves behind: everybody is registered, or the connection is lost with its
own session about to be. -/
def Settled (node : NodeId) (connection : ConnectionId) (result : Except WsHandlerError Unit)
    (after : Roster) : Prop :=
  Seated node none after ∨
    result = .error .writeFailed ∧ Seated node (after.attached connection) after

/-- Whoever enters sits in the room, and is about to be registered. -/
theorem Seated.entered {sfuAddr : Address} (seated : Seated state.node none before)
    (entered : Entered state connection sessionId roomId session sfuAddr before after) :
    Seated state.node (some sessionId) after ∧ after.attached connection = some sessionId ∧
      Sits state.node after sessionId roomId session.nickname := by
  obtain ⟨admitted, opened, opens, enterable, rfl⟩ := entered
  obtain ⟨-, named, room⟩ := Roster.session_eq_some.mp admitted.found
  have stays : Stays state.node (before.check state.node connection sessionId session) opened ∧
      opened.known state.node sessionId = some session ∧ session.nickname = opened.named sessionId ∧
      opened.attached connection = some sessionId := by
    have known : (before.check state.node connection sessionId session).known state.node sessionId =
        some session := by
      rw [known_check, if_pos rfl]
    have attached : (before.check state.node connection sessionId session).attached connection =
        some sessionId := Function.update_self _ _ _
    cases opens with
    | join => exact ⟨.refl _, known, named, attached⟩
    | create => exact ⟨(stays_draw roomId).trans stays_bind, known, named, attached⟩
  obtain ⟨stays, known, named, attached⟩ := stays
  have seated := (seated.stays (seated.checked admitted.toChecked)).stays stays
  have nowhere : session = ⟨session.nickname, none⟩ := by
    rw [← admitted.outside]
  rw [nowhere] at known
  exact ⟨seated.enter known named enterable.absent, attached, sits_enter known⟩

/-- A request to enter a room. -/
theorem Seated.entry (seated : Seated state.node none before)
    (outcome : EntryOutcome state connection sessionId Willing regular before result after) :
    Settled state.node connection result after := by
  have refused (refused : Refused state connection sessionId regular before after) :
      Seated state.node none after := by
    have checks {session : SessionState} (checked : Checked before connection sessionId session) :
        Stays state.node before (before.check state.node connection sessionId session) :=
      seated.checked checked
    refine seated.stays ?_
    cases refused with
    | unmoved unmoved => exact seated.unmoved unmoved
    | drawn checked => exact (checks checked).trans (stays_draw _)
    | stranded _ checked => exact ((checks checked).trans (stays_draw _)).trans stays_bind
    | closed checked _ opens =>
        refine Stays.trans ?_ stays_close
        cases opens with
        | join => exact checks checked
        | create => exact ((checks checked).trans (stays_draw _)).trans stays_bind
  cases result with
  | error error =>
      rcases outcome with ⟨rfl, _, _, _, entered⟩ | ⟨-, refusal⟩
      · obtain ⟨seated, attached, -⟩ := seated.entered entered
        rw [← attached] at seated
        exact .inr ⟨rfl, seated⟩
      · exact .inl (refused refusal)
  | ok =>
      obtain ⟨_, _, _, entered, victims, enters, refusing, rfl⟩ := outcome
      obtain rfl := nil_of_refusing refusing
      obtain ⟨seated, -, sits⟩ := seated.entered enters
      exact .inl (seated.register sits)

/-- What a client's message leaves behind. -/
theorem Seated.message (seated : Seated state.node none before)
    (outcome : Outcome state connection Willing regular before request result after) :
    Settled state.node connection result after := by
  cases request with
  | attach token =>
      cases outcome with
      | refused => exact .inl seated
      | @attached _ sessionId session _ _ found =>
          have owns : Stays state.node before
              (before.hset sessionId "signaling_owner_id" state.config.publicNodeId) :=
            stays_hset (by decide) (by decide)
          have owned := seated.stays owns
          obtain ⟨-, named, room⟩ := Roster.session_eq_some.mp found
          refine .inl (owned.stays (owned.check ?_ ?_))
          · rw [named, Roster.named_hset (by decide)]
          · rw [room, Roster.room_hset (by decide)]
  | logout sessionId participants =>
      cases outcome with
      | refused => exact .inl seated
      | outside checked room =>
          have stays := seated.checked checked
          refine .inl (seated.stays (stays.trans (stays_logout ?_)))
          exact (Roster.session_eq_some.mp checked.found).2.2.symm.trans room
      | inside checked room refusing =>
          obtain rfl := nil_of_refusing refusing
          have stays := seated.checkedOut checked room
          exact .inl (seated.stays (stays.trans (stays_logout (room_leave _))))
  | create sessionId | join sessionId =>
      obtain ⟨lockOwner, ⟨-, rfl⟩ | outcome⟩ := outcome
      · exact .inl (seated.stays (stays_draw lockOwner))
      · exact (seated.stays (stays_draw lockOwner)).entry outcome
  | leave =>
      cases outcome with
      | refused unmoved => exact .inl (seated.stays (seated.unmoved unmoved))
      | left checked room refusing =>
          obtain rfl := nil_of_refusing refusing
          exact .inl (seated.stays (seated.checkedOut checked room))
  | sdp | candidate => exact .inl (seated.stays (seated.unmoved outcome))

/-- A session that nobody has in a room any more needs no seat. -/
theorem Seated.absent (seated : Seated node standing roster)
    (absent : ∀ sessionId, standing = some sessionId →
      ∀ roomId nickname, ¬ Sits node roster sessionId roomId nickname) :
    Seated node none roster := by
  refine ⟨seated.recorded, seated.member, seated.apart, fun sessionId roomId nickname sits _ => ?_⟩
  refine seated.registered sessionId roomId nickname sits fun same => ?_
  exact absent sessionId same roomId nickname sits

/-- The end of a connection takes its session out of its room. -/
theorem Seated.disconnect
    (seated : Seated state.node standing before)
    (own : standing = none ∨ standing = before.attached connection)
    (outcome : CleanupOutcome state connection Willing before after) :
    Seated state.node none (after.attach connection none) := by
  have forgotten {roster : Roster} {sessionId : SessionId}
      (stays : Stays state.node before (roster.withSessions state.node (·.remove sessionId)))
      (attached : before.attached connection = some sessionId) :
      Seated state.node none
        ((roster.withSessions state.node (·.remove sessionId)).attach connection none) := by
    refine ((seated.stays stays).absent fun other same roomId nickname sits => ?_).stays
      (stays_attach none)
    obtain rfl : sessionId = other := by
      rcases own with rfl | rfl
      · cases same
      · exact Option.some.inj (attached.symm.trans same)
    rw [Sits, Roster.known_withSessions, if_pos rfl, SessionStore.lookup_remove, if_pos rfl] at sits
    cases sits
  cases outcome with
  | unattached unattached =>
      refine (seated.absent fun sessionId same => ?_).stays (stays_attach none)
      rcases own with rfl | rfl
      · cases same
      · rw [unattached] at same
        cases same
  | @outside sessionId attached outside =>
      refine forgotten (stays_remove ?_) attached
      cases room : before.room sessionId with
      | none => rfl
      | some roomId =>
          have sits := seated.recorded sessionId roomId room
          have recalled : before.recalled state.node sessionId =
              some ⟨before.named sessionId, some roomId⟩ := by
            unfold Roster.recalled
            rw [show before.known state.node sessionId = _ from sits]
          cases outside _ recalled
  | @inside sessionId session roomId victims attached recalled room refusing =>
      obtain rfl := nil_of_refusing refusing
      refine forgotten (Stays.trans (seated.leave ?_) (stays_remove (room_leave []))) attached
      have known : before.known state.node sessionId = some session := by
        unfold Roster.recalled at recalled
        cases known : before.known state.node sessionId with
        | some other =>
            rw [known] at recalled
            exact recalled
        | none =>
            rw [known] at recalled
            have recorded := (Roster.session_eq_some.mp recalled).2.2
            have sits := seated.recorded sessionId roomId (recorded.symm.trans room)
            rw [Sits, known] at sits
            cases sits
      rw [Sits, known, ← room]

/-- A new session is in no room. -/
theorem stays_enroll : Stays node roster (roster.enroll nickname sessionId) where
  sits _ _ _ sits := ⟨sits, id, id⟩
  room query roomId room := by
    have other : query ≠ sessionId := by
      rintro rfl
      rw [Roster.enroll, Roster.room, Roster.get_hset, if_pos ⟨rfl, rfl⟩] at room
      cases room
    have same : (roster.enroll nickname sessionId).sessions query = roster.sessions query := by
      rw [Roster.enroll, Roster.sessions_hset, if_neg other, Roster.sessions_hset, if_neg other]
      rfl
    refine ⟨?_, ?_, rfl⟩
    · unfold Roster.room at room ⊢
      rwa [same] at room
    · unfold Roster.named
      rw [same]

/-! ## The events of an SFU -/

section Events

variable {exec : (op : Op) → World → op.Reply → World → Prop} {world : World}
  (sound : ∀ op before reply after, exec op before reply after → World.exec op before reply after)
  (accepts : ∀ sender message before reply after,
    exec (.trySend sender message) before reply after →
      Willing before.roster.listening sender → reply = true)

include sound accepts

/-- A broadcast for an SFU event moves nobody. -/
theorem broadcastToRoom_silent (exceptNickname : Option Nickname) (payload : ServerMessage) :
    (SfuEvents.broadcastToRoom state roomId exceptNickname payload).Ensures exec world
      fun _ after => after.roster = world.roster := by
  refine (broadcastToRoom_ensures sound accepts state roomId exceptNickname payload).bind ?_
  rintro stale middle ⟨same, refusing⟩
  obtain rfl := nil_of_refusing refusing
  exact ensures_ret.mpr same

/-- A message to one peer moves nobody. -/
theorem sendToPeer_silent (payload : ServerMessage) :
    (SfuEvents.sendToPeer state roomId nickname payload).Ensures exec world
      fun _ after => after.roster = world.roster := by
  unfold SfuEvents.sendToPeer
  split
  · exact ensures_ret.mpr rfl
  have sends : (state.sendToPeer roomId nickname payload).Ensures exec world fun status after =>
      status ≠ .stale ∧ after.roster = world.roster := by
    have looks : (issue (.peers state.node (.sender roomId nickname))).Ensures exec world
        fun _ after => after.roster = world.roster := by
      refine ensures_issue sound fun sender after step => ?_
      obtain ⟨_, ⟨-, rfl⟩, rfl⟩ := step
      simp only [World.roster, World.setNode, Function.update_eq_self]
    refine looks.bind fun sender looked same => ?_
    cases sender with
    | none => exact ensures_ret.mpr ⟨by decide, same⟩
    | some sender =>
        refine ensures_call.mpr fun sent last step => ensures_ret.mpr ?_
        rw [accepts _ _ _ _ _ step trivial]
        exact ⟨by decide, (World.exec_silent (sound _ _ _ _ step) trivial).trans same⟩
  refine sends.bind ?_
  rintro status after ⟨delivered, same⟩
  cases status with
  | delivered | missing => exact ensures_ret.mpr same
  | stale => exact absurd rfl delivered

/-- An event is reported, and nobody is detached. -/
theorem handleSfuEvent_silent (event : SfuEvent) :
    (handleSfuEvent state event).Ensures exec world fun _ after => after.roster = world.roster := by
  unfold handleSfuEvent
  split
  · exact ensures_ret.mpr rfl
  · split
    · exact ensures_ret.mpr rfl
    · exact broadcastToRoom_silent sound accepts _ _
  · exact ensures_ret.mpr rfl
  · exact ensures_ret.mpr rfl
  · exact sendToPeer_silent sound accepts _
  · exact sendToPeer_silent sound accepts _
  · exact ensures_ret.mpr rfl

end Events

/-! ## Runs of a node -/

/-- What happens at a signaling node and at the connector. -/
inductive Happening
  | auth (nickname : String)
  | logout (sessionId : SessionId)
  | message (connection : ConnectionId) (request : ClientMessage)
  | disconnect (connection : ConnectionId)
  | event (event : SfuEvent)

/-- A connection that cannot be written to ends. -/
def Happening.program (config : Connector.Config) (jwt : Jwt) (state : State) :
    Happening → Call Unit
  | .auth nickname => do let _ ← (Connector.auth config nickname).run
  | .logout sessionId => do let _ ← (Connector.logout sessionId).run
  | .message connection request => do
      if ← handleText state connection jwt request then return ()
      else endConnection state connection
  | .disconnect connection => endConnection state connection
  | .event reported => handleSfuEvent state reported

/-- Elsewhere sessions may expire, and nothing else that concerns the rooms of sessions. -/
structure Rests (node : NodeId) (before after : Roster) : Prop where
  sessions : ∀ sessionId, after.sessions sessionId = before.sessions sessionId ∨
    after.sessions sessionId = none
  members : after.members = before.members
  node : after.nodes node = before.nodes node

/-- A node whose channels reply to `try_send` as `lets` says. -/
def system (config : Connector.Config) (jwt : Jwt) (state : State)
    (lets : (op : Op) → op.Reply → Prop) : Turns Op Op.Reply World Happening where
  program := Happening.program config jwt state
  starts _ _ := True
  exec _ op before reply after := World.exec op before reply after ∧ lets op reply
  idles before after := Rests state.node before.roster after.roster

/-- A channel has not refused a message. -/
def accepted : (op : Op) → op.Reply → Bool
  | .trySend .., reply => reply
  | _, _ => true

/-- No channel refuses a message. -/
def Accepted (op : Op) (reply : op.Reply) : Prop := accepted op reply = true

instance (op : Op) (reply : op.Reply) : Decidable (Accepted op reply) :=
  inferInstanceAs (Decidable (_ = true))

/-- A roster that rests moves nobody. -/
theorem stays_of_rests (rests : Rests node before after) : Stays node before after where
  sits sessionId roomId nickname sits := by
    unfold Sits Roster.known at sits ⊢
    rw [rests.node] at sits
    rw [rests.members, Roster.peers, Roster.peers, rests.node]
    exact ⟨sits, id, id⟩
  room sessionId roomId room := by
    rcases rests.sessions sessionId with same | gone
    · refine ⟨?_, ?_, ?_⟩
      · unfold Roster.room at room ⊢
        rwa [same] at room
      · unfold Roster.named
        rw [same]
      · unfold Roster.known
        rw [rests.node]
    · rw [Roster.room, gone] at room
      cases room

section Run

variable {config : Connector.Config} {jwt : Jwt} {world : World}

/-- An operation while no channel refuses a message. -/
abbrev Smooth : (op : Op) → World → op.Reply → World → Prop :=
  Replying fun op _ reply => Accepted op reply

/-- No channel refuses while the run is smooth. -/
theorem willing_of_smooth (sender : ConnectionId) (message : ServerMessage) (before : World)
    (reply : (Op.trySend sender message).Reply) (after : World)
    (step : Smooth (.trySend sender message) before reply after)
    (_ : Willing before.roster.listening sender) : reply = true :=
  step.2

/-- The connector's login moves nobody. -/
theorem stays_of_auth (outcome : Connector.AuthOutcome before after) : Stays node before after := by
  cases outcome with
  | invalid => exact .refl _
  | taken => exact stays_draw _
  | enrolled => exact stays_enroll

/-- The connector's logout moves nobody. -/
theorem stays_of_logout (outcome : Connector.LogoutOutcome sessionId before after) :
    Stays node before after := by
  cases outcome with
  | unknown => exact .refl _
  | gone => exact stays_deleteSession.trans (stays_release _ _)

/-- The end of a connection, whose session may be about to be registered. -/
theorem Seated.ends (seated : Seated state.node standing world.roster)
    (own : standing = none ∨ standing = world.roster.attached connection) :
    (endConnection state connection).Ensures Smooth world
      fun _ after => Seated state.node none after.roster := by
  refine (endConnection_ensures exec_of_replying willing_of_smooth state connection).mono ?_
  rintro _ after ⟨cleaned, outcome, same⟩
  rw [same]
  exact seated.disconnect own outcome

/-- **Step lemma.** While no channel refuses a message everybody keeps the seat. -/
theorem Seated.happening (seated : Seated state.node none world.roster) (happening : Happening) :
    (happening.program config jwt state).Ensures Smooth world
      fun _ after => Seated state.node none after.roster := by
  cases happening with
  | auth nickname =>
      refine (Connector.auth_ensures exec_of_replying config nickname).bind
        fun _ after outcome => ?_
      exact ensures_ret.mpr (seated.stays (stays_of_auth outcome))
  | logout sessionId =>
      refine (Connector.logout_ensures exec_of_replying sessionId).bind fun _ after outcome => ?_
      exact ensures_ret.mpr (seated.stays (stays_of_logout outcome))
  | message connection request =>
      refine (handleText_ensures exec_of_replying willing_of_smooth
        (fun (irregular : False) => irregular.elim) state connection jwt request).bind ?_
      rintro goesOn middle ⟨result, outcome, goes⟩
      have settled := seated.message outcome
      cases goesOn with
      | true => exact ensures_ret.mpr (settled.resolve_right fun lost => goes rfl lost.1)
      | false =>
          rcases settled with seated | ⟨-, seated⟩
          · exact seated.ends (.inl rfl)
          · exact seated.ends (.inr rfl)
  | disconnect connection => exact seated.ends (.inl rfl)
  | event reported =>
      refine (handleSfuEvent_silent exec_of_replying willing_of_smooth reported).mono ?_
      intro _ after same
      rw [same]
      exact seated

/-- **Every session in a room is registered there** after any run in which no channel refuses a
message. -/
theorem allRegistered_of_accepted {labels : List (Option Happening)} {after : World}
    (empty : Empty state.node world.roster)
    (run : Runs (system config jwt state Accepted).Step world labels after) :
    AllRegistered state.node after.roster := by
  have seated : Seated state.node none after.roster := by
    refine Turns.invariant (fun world => Seated state.node none world.roster)
      (fun happening before seated _ => seated.happening happening)
      (fun before after seated rests => seated.stays (stays_of_rests rests)) empty.seated run
  exact seated.allRegistered

end Run

/-! ## A peer that hears nothing -/

/-- The connector's configuration. -/
def sampleConfig : Connector.Config := { sessionTtlSecs := 3600 }

/-- One SFU and no user; a channel holds two messages. -/
def smallWorld : World :=
  { Names.sampleWorld with connections := fun _ => { capacity := 2 } }

/-- The token with which a session may join a room. -/
def joinToken (jti sessionId nickname : String) (roomId : RoomId) : String :=
  TokenFormat.openJwt.encode sampleNode.config.connectorTokenSecret
    { jti, sessionId, nickname, signalingInstanceId := sampleNode.config.publicNodeId
      intent := "join", roomId := some roomId, iat := 0, exp := 120 }

/-- Alice creates a room and Bob joins it, which she is told. -/
def together : List (Happening × List Hint) :=
  [(.auth "alice", { names := ["session-1"] } :: noHints 4),
    (.message 0 (.attach (Names.createToken "token-1" "session-1" "alice")), noHints 11),
    (.message 0 (.create "session-1"),
      noHints 1 ++ { names := ["lock-1"] } :: noHints 7 ++ { names := ["room-1"] } ::
        noHints 1 ++ { names := ["sfu-1"] } :: noHints 3 ++ { names := ["alice"] } ::
          noHints 7),
    (.auth "bob", { names := ["session-2"] } :: noHints 4),
    (.message 1 (.attach (joinToken "token-2" "session-2" "bob" "room-1")), noHints 11),
    (.message 1 (.join "session-2" "room-1"),
      noHints 1 ++ { names := ["lock-2"] } :: noHints 11 ++
        { names := ["alice", "bob"] } :: noHints 6 ++ { names := ["alice"] } :: noHints 2)]

/-- A candidate of the SFU for Bob. -/
def candidate : Happening :=
  .event ⟨"room-1", "bob", some (.iceCandidate "candidate:1" "0")⟩

/-- Three candidates, faster than Bob receives them. -/
def candidates : List (Happening × List Hint) :=
  [(candidate, noHints 2), (candidate, noHints 2),
    (candidate, noHints 10 ++ { names := ["alice"] } :: noHints 1)]

/-- The small world seats nobody. -/
theorem empty_smallWorld : Empty sampleNode.node smallWorld.roster where
  recorded sessionId := rfl
  remembered sessionId roomId nickname sits := by cases sits

/-- One outcome of an operation, if no channel refuses. -/
def sampleSmooth (hint : Hint) (op : Op) (world : World) : Option (op.Reply × World) :=
  (World.sample hint op world).filter fun outcome => Accepted op outcome.1

/-- What the sampler computes is a smooth step. -/
theorem sampleSmooth_sound (_ : Happening) (hint : Hint) (op : Op) (before : World)
    (reply : op.Reply) (after : World)
    (sampled : sampleSmooth hint op before = some (reply, after)) :
    Smooth op before reply after := by
  obtain ⟨found, accepted⟩ := Option.filter_eq_some_iff.mp sampled
  exact ⟨World.sample_sound found, of_decide_eq_true accepted⟩

/-- Alice and Bob are in a room together. -/
theorem allRegistered_together : ∃ after,
    Runs (system sampleConfig TokenFormat.openJwt sampleNode Accepted).Step smallWorld
      (together.map (some ·.1)) after ∧
    after.roster.room "session-2" = some "room-1" ∧
    AllRegistered sampleNode.node after.roster := by
  have passes : ((system sampleConfig TokenFormat.openJwt sampleNode Accepted).follow
      (fun _ => sampleSmooth) (fun _ _ => true) together smallWorld).any (fun after =>
        decide (after.roster.room "session-2" = some "room-1")) = true := by
    decide +kernel
  obtain ⟨after, run, passed⟩ :=
    Turns.exists_of_follow sampleSmooth_sound (fun _ _ _ => trivial) passes
  exact ⟨after, run, of_decide_eq_true passed, allRegistered_of_accepted empty_smallWorld run⟩

/-- **Bob is detached and still in the room**: his channel is full when a candidate comes. -/
theorem detached_in_room : Empty sampleNode.node smallWorld.roster ∧ ∃ after,
    Runs (system sampleConfig TokenFormat.openJwt sampleNode fun _ _ => True).Step smallWorld
      ((together ++ candidates).map (some ·.1)) after ∧
    ¬ AllRegistered sampleNode.node after.roster := by
  have passes : ((system sampleConfig TokenFormat.openJwt sampleNode fun _ _ => True).follow
      (fun _ => World.sample) (fun _ _ => true) (together ++ candidates) smallWorld).any
        (fun after => decide (after.roster.room "session-2" = some "room-1" ∧
          ("room-1", after.roster.named "session-2") ∉ after.roster.peers sampleNode.node)) =
      true := by
    decide +kernel
  have sound (happening : Happening) (hint : Hint) (op : Op) (before : World) (reply : op.Reply)
      (after : World) (sampled : World.sample hint op before = some (reply, after)) :
      World.exec op before reply after ∧ True := ⟨World.sample_sound sampled, trivial⟩
  obtain ⟨after, run, passed⟩ := Turns.exists_of_follow sound (fun _ _ _ => trivial) passes
  obtain ⟨room, unregistered⟩ := of_decide_eq_true passed
  refine ⟨empty_smallWorld, after, run, fun all => unregistered ?_⟩
  exact all.recorded "session-2" "room-1" room

end Callifornia.Seats
