import Callifornia.Concurrency.Replay
import Callifornia.Sfu.FixedSlots
import Callifornia.Store.FiniteMap

/-! # The negotiation of a peer session

A call that applies a remote offer leaves a promise in the session and waits for it. The
callback with a local description fulfils the promise it finds there.
-/

namespace Callifornia.Sfu.Negotiation

open Concurrency Concurrency.System FiniteMap Text

abbrev PromiseId := ℕ

/-- The number of a remote offer that the connection has accepted. -/
abbrev OfferId := ℕ

inductive DescriptionType
  | answer
  | offer
  | pranswer
  | rollback
  deriving DecidableEq

structure Description where
  type : DescriptionType
  sdp : Chars
  deriving DecidableEq

/-- What a promise holds; an exception has no text. -/
abbrev Outcome := Except Unit Chars

/-- A peer session, its promises and its connection. -/
structure PeerSession where
  hasPc : Bool
  negotiationInProgress : Bool
  answerPromise : Option PromiseId
  nextPromise : PromiseId
  promises : PromiseId → Option Outcome
  nextOffer : OfferId
  /-- The answers generated so far, each for an accepted offer. -/
  generated : Map OfferId Chars
  /-- The SDPs returned so far, each for the offer that was passed. -/
  returned : List (OfferId × Chars)

/-- A session whose connection has been initialised. -/
def PeerSession.initial : PeerSession :=
  { hasPc := true, negotiationInProgress := false, answerPromise := none, nextPromise := 0,
    promises := fun _ => none, nextOffer := 0, generated := ∅, returned := [] }

/-- Fulfil a promise; one that is fulfilled stays as it is. -/
def PeerSession.fulfil (session : PeerSession) (promise : PromiseId) (outcome : Outcome) :
    PeerSession :=
  if session.promises promise = none then
    { session with promises := Function.update session.promises promise (some outcome) }
  else session

/-- The atomic steps of a session. -/
inductive Op
  /-- `m_negotiationInProgress.exchange(true)` -/
  | exchangeInProgress
  | storeInProgress
  | makePromise
  | setRemoteDescription (sdp : Chars)
  | resetPromise
  | waitFor (promise : PromiseId)
  | get (promise : PromiseId)
  | takePromise
  | fulfil (promise : PromiseId) (outcome : Outcome)
  | shutdown

/-- What a step replies. The session does not see the number of an accepted offer. -/
@[reducible] def Op.Reply : Op → Type
  | .exchangeInProgress | .waitFor _ => Bool
  | .makePromise | .takePromise => Option PromiseId
  | .setRemoteDescription _ => Option OfferId
  | .get _ => Outcome
  | _ => Unit

/-- The effect of a step. The connection may refuse an offer. -/
def exec : (op : Op) → PeerSession → op.Reply → PeerSession → Prop
  | .exchangeInProgress, session, reply, after =>
      reply = session.negotiationInProgress ∧ after = { session with negotiationInProgress := true }
  | .storeInProgress, session, _, after => after = { session with negotiationInProgress := false }
  | .makePromise, session, reply, after =>
      if session.hasPc then
        reply = some session.nextPromise ∧
          after = { session with
            answerPromise := some session.nextPromise
            nextPromise := session.nextPromise + 1 }
      else reply = none ∧ after = session
  | .setRemoteDescription _, session, reply, after =>
      reply = none ∧ after = session ∨
        reply = some session.nextOffer ∧ after = { session with nextOffer := session.nextOffer + 1 }
  | .resetPromise, session, _, after => after = { session with answerPromise := none }
  | .waitFor promise, session, reply, after =>
      reply = (session.promises promise).isSome ∧ after = session
  | .get promise, session, reply, after =>
      session.promises promise = some reply ∧ after = session
  | .takePromise, session, reply, after =>
      reply = session.answerPromise ∧ after = { session with answerPromise := none }
  | .fulfil promise outcome, session, _, after => after = session.fulfil promise outcome
  | .shutdown, session, _, after =>
      after = { session with hasPc := false, answerPromise := none }

abbrev Call := Program Op Op.Reply

abbrev issue (op : Op) : Call op.Reply := Program.perform op

/-- A negotiation, while the flag is set. -/
def negotiate (sdp : Chars) : Call (Except String Chars) := do
  match validateFixedSlotsOffer sdp with
  | .error message => return .error message
  | .ok () =>
      match ← issue .makePromise with
      | none => return .error "PeerConnection is not initialized"
      | some promise =>
          match ← issue (.setRemoteDescription sdp) with
          | none =>
              issue .resetPromise
              return .error "failed to apply remote SDP offer"
          | some _ =>
              if ← issue (.waitFor promise) then
                match ← issue (.get promise) with
                | .ok answer => return .ok answer
                | .error _ => return .error "failed to read local SDP answer"
              else
                issue .resetPromise
                return .error "timed out waiting for local SDP answer"

def applyRemoteOffer (sdp : Chars) : Call (Except String Chars) := do
  if ← issue .exchangeInProgress then
    return .error "negotiation already in progress for peer"
  else
    let result ← negotiate sdp
    issue .storeInProgress
    return result

def onLocalDescription (description : Description) : Call Unit := do
  match ← issue .takePromise with
  | none => return ()
  | some promise =>
      match description.type with
      | .answer => issue (.fulfil promise (.ok description.sdp))
      | _ => issue (.fulfil promise (.error ()))

def shutdownPeerConnection : Call Unit := issue .shutdown

/-! ## Calls and callbacks -/

/-- How far a call or a callback has got. -/
inductive Phase
  | idle
  /-- A call has left its promise, and not passed its offer on. -/
  | prepared (promise : PromiseId)
  | waiting (promise : PromiseId) (offer : OfferId)
  | answered (promise : PromiseId) (offer : OfferId)
  | returning (offer : OfferId) (sdp : Chars)
  /-- A callback with the answer to this offer. -/
  | answering (offer : OfferId) (sdp : Chars)
  | fulfilling (promise : PromiseId) (offer : OfferId) (sdp : Chars)
  deriving DecidableEq

namespace Phase

/-- The connection has accepted the offer of a call. -/
def accepted (offer : OfferId) : Phase → Phase
  | .prepared promise => .waiting promise offer
  | phase => phase

def ready : Phase → Phase
  | .waiting promise offer => .answered promise offer
  | phase => phase

def read (sdp : Chars) : Phase → Phase
  | .answered _ offer => .returning offer sdp
  | phase => phase

def took (promise : PromiseId) : Phase → Phase
  | .answering offer sdp => .fulfilling promise offer sdp
  | phase => phase

def advance (phase : Phase) : (op : Op) → op.Reply → Phase
  | .makePromise, some promise => .prepared promise
  | .setRemoteDescription _, some offer => phase.accepted offer
  | .waitFor _, true => phase.ready
  | .waitFor _, false => .idle
  | .get _, .ok sdp => phase.read sdp
  | .get _, .error _ => .idle
  | .takePromise, some promise => phase.took promise
  | .takePromise, none => .idle
  | .resetPromise, _ | .fulfil .., _ => .idle
  | _, _ => phase

/-- A call expects this promise to be fulfilled with the answer to another offer. -/
def Mistakes (promise : PromiseId) (offer : OfferId) : Phase → Prop
  | .prepared own => own = promise
  | .waiting own expected => own = promise ∧ expected ≠ offer
  | _ => False

instance (promise : PromiseId) (offer : OfferId) : DecidablePred (Mistakes promise offer) := by
  intro phase
  unfold Mistakes
  split <;> infer_instance

end Phase

/-- What a call or a callback comes to. -/
inductive Result
  | applied (answer : Except String Chars)
  | handled

/-- Calls of `applyRemoteOffer` on one session, and the callbacks of its connection, one for
each accepted offer. -/
def negotiations : System Op Op.Reply where
  State := PeerSession
  Phase := Phase
  Result := Result
  exec := exec
  advance := Phase.advance
  start session _ phase program after :=
    (∃ sdp, after = session ∧ phase = .idle ∧
        program = applyRemoteOffer sdp >>= fun answer => .ret (.applied answer)) ∨
      (∃ offer sdp, offer < session.nextOffer ∧ session.generated.lookup offer = none ∧
        after = { session with generated := session.generated.insert offer sdp } ∧
        phase = .answering offer sdp ∧
        program = Functor.mapConst .handled (onLocalDescription ⟨.answer, sdp⟩)) ∨
      after = session ∧ phase = .idle ∧
        program = Functor.mapConst .handled shutdownPeerConnection
  finish session phase result :=
    match phase, result with
    | .returning offer _, .applied (.ok sdp) =>
        { session with returned := session.returned ++ [(offer, sdp)] }
    | _, _ => session
  discard _ _ := False
  environment _ _ _ := False

/-- A callback finds no promise of a call that still waits for the answer to another offer. -/
def Prompt : negotiations.Guard :=
  fun (session : PeerSession) (phase : Phase) op (others : Multiset Phase) =>
    match op, phase with
    | .takePromise, .answering offer _ => ∀ promise ∈ session.answerPromise,
        ∀ other ∈ others, ¬ Phase.Mistakes promise offer other
    | _, _ => True

/-! ## Answers and their offers -/

/-- What is known of a call or a callback. -/
def Sound (session : PeerSession) (phases : Multiset Phase) : Phase → Prop
  | .idle => True
  | .prepared promise => session.promises promise = none ∧
      ∀ offer sdp, .fulfilling promise offer sdp ∉ phases
  | .waiting promise offer =>
      (∀ other sdp, .fulfilling promise other sdp ∈ phases → other = offer) ∧
        ∀ sdp, session.promises promise = some (.ok sdp) →
          session.generated.lookup offer = some sdp
  | .answered promise offer => session.promises promise ≠ none ∧
      ∀ sdp, session.promises promise = some (.ok sdp) →
        session.generated.lookup offer = some sdp
  | .returning offer sdp | .answering offer sdp | .fulfilling _ offer sdp =>
      session.generated.lookup offer = some sdp

/-- Whoever waits for a promise gets the answer to the offer it has passed. -/
structure Honest (session : PeerSession) (phases : Multiset Phase) : Prop where
  current : ∀ promise ∈ session.answerPromise, promise < session.nextPromise ∧
    session.promises promise = none ∧ ∀ offer sdp, .fulfilling promise offer sdp ∉ phases
  unused : ∀ promise, session.nextPromise ≤ promise → session.promises promise = none ∧
    ∀ offer sdp, .fulfilling promise offer sdp ∉ phases
  sound : ∀ phase ∈ phases, Sound session phases phase
  returned : ∀ entry ∈ session.returned, session.generated.lookup entry.1 = some entry.2

/-- The outline of the negotiations. -/
def honesty : Outline negotiations where
  guard := Prompt
  inv := Honest
  asserts _ _ _ := True

section

variable {session after : PeerSession} {phase phase' : Phase}
    {phases phases' others : Multiset Phase}

theorem Sound.mono (sound : Sound session phases phase)
    (fulfilling : ∀ promise offer sdp, .fulfilling promise offer sdp ∈ phases' →
      .fulfilling promise offer sdp ∈ phases)
    (promises : after.promises = session.promises)
    (generated : ∀ offer sdp, session.generated.lookup offer = some sdp →
      after.generated.lookup offer = some sdp) : Sound after phases' phase := by
  cases phase with
  | idle => trivial
  | prepared promise =>
      exact ⟨promises ▸ sound.1,
        fun offer sdp member => sound.2 offer sdp (fulfilling _ _ _ member)⟩
  | waiting promise offer =>
      refine ⟨fun other sdp member => sound.1 other sdp (fulfilling _ _ _ member),
        fun sdp kept => ?_⟩
      exact generated _ _ (sound.2 sdp (promises ▸ kept))
  | answered promise offer =>
      exact ⟨promises ▸ sound.1, fun sdp kept => generated _ _ (sound.2 sdp (promises ▸ kept))⟩
  | returning offer sdp => exact generated _ _ sound
  | answering offer sdp => exact generated _ _ sound
  | fulfilling promise offer sdp => exact generated _ _ sound

namespace Honest

theorem tail (honest : Honest session (phase ::ₘ others)) : Honest session others := by
  have kept {other : Phase} (member : other ∈ others) : other ∈ phase ::ₘ others :=
    Multiset.mem_cons_of_mem member
  refine ⟨fun promise member => ?_, fun promise bound => ?_, fun other member => ?_,
    honest.returned⟩
  · obtain ⟨bound, free, untaken⟩ := honest.current promise member
    exact ⟨bound, free, fun offer sdp member => untaken offer sdp (kept member)⟩
  · obtain ⟨free, untaken⟩ := honest.unused promise bound
    exact ⟨free, fun offer sdp member => untaken offer sdp (kept member)⟩
  · exact (honest.sound other (kept member)).mono (fun _ _ _ => kept) rfl fun _ _ => id

/-- One more call or callback, that is not about to fulfil a promise. -/
theorem cons (honest : Honest session others) (own : Sound session (phase ::ₘ others) phase)
    (idle : ∀ promise offer sdp, phase ≠ .fulfilling promise offer sdp) :
    Honest session (phase ::ₘ others) := by
  have old (promise : PromiseId) (offer : OfferId) (sdp : Chars)
      (member : .fulfilling promise offer sdp ∈ phase ::ₘ others) :
      .fulfilling promise offer sdp ∈ others :=
    (Multiset.mem_cons.mp member).resolve_left (Ne.symm (idle _ _ _))
  refine ⟨fun promise member => ?_, fun promise bound => ?_, fun other member => ?_,
    honest.returned⟩
  · obtain ⟨bound, free, untaken⟩ := honest.current promise member
    exact ⟨bound, free, fun offer sdp member => untaken offer sdp (old _ _ _ member)⟩
  · obtain ⟨free, untaken⟩ := honest.unused promise bound
    exact ⟨free, fun offer sdp member => untaken offer sdp (old _ _ _ member)⟩
  · rcases Multiset.mem_cons.mp member with rfl | later
    · exact own
    · exact (honest.sound other later).mono old rfl fun _ _ => id

/-- The promises stay as they are; a new current promise has just been made. -/
theorem moved (honest : Honest session phases) (promises : after.promises = session.promises)
    (generated : ∀ offer sdp, session.generated.lookup offer = some sdp →
      after.generated.lookup offer = some sdp)
    (fewer : session.nextPromise ≤ after.nextPromise)
    (current : ∀ promise ∈ after.answerPromise, promise ∈ session.answerPromise ∨
      session.nextPromise ≤ promise ∧ promise < after.nextPromise)
    (returned : after.returned = session.returned) : Honest after phases := by
  refine ⟨fun promise member => ?_, fun promise bound => ?_, fun other member => ?_, ?_⟩
  · rcases current promise member with old | ⟨new, bound⟩
    · obtain ⟨bound, free, untaken⟩ := honest.current promise old
      exact ⟨bound.trans_le fewer, promises ▸ free, untaken⟩
    · obtain ⟨free, untaken⟩ := honest.unused promise new
      exact ⟨bound, promises ▸ free, untaken⟩
  · obtain ⟨free, untaken⟩ := honest.unused promise (fewer.trans bound)
    exact ⟨promises ▸ free, untaken⟩
  · exact (honest.sound other member).mono (fun _ _ _ => id) promises generated
  · rw [returned]
    exact fun entry listed => generated _ _ (honest.returned entry listed)

/-- The flag, the number of offers and the connection do not matter. -/
theorem aside (honest : Honest session phases) (hasPc negotiationInProgress : Bool)
    (nextOffer : OfferId) : Honest
    { session with hasPc, negotiationInProgress, nextOffer } phases :=
  honest.moved rfl (fun _ _ => id) le_rfl (fun _ => .inl) rfl

/-- The session lets go of its promise. -/
theorem reset (honest : Honest session phases) :
    Honest { session with answerPromise := none } phases :=
  honest.moved rfl (fun _ _ => id) le_rfl nofun rfl

variable {promise : PromiseId} {offer : OfferId} {sdp : Chars}

/-- A call makes its promise. -/
theorem prepares (honest : Honest session others) :
    Honest { session with
      answerPromise := some session.nextPromise
      nextPromise := session.nextPromise + 1 } (.prepared session.nextPromise ::ₘ others) := by
  obtain ⟨free, untaken⟩ := honest.unused session.nextPromise le_rfl
  refine cons (honest.moved rfl (fun _ _ => id) (Nat.le_succ _) ?_ rfl) ⟨free, ?_⟩ nofun
  · intro promise member
    cases member
    exact .inr ⟨le_rfl, Nat.lt_succ_self _⟩
  · intro offer sdp member
    exact untaken offer sdp ((Multiset.mem_cons.mp member).resolve_left nofun)

/-- The connection accepts the offer of a call. -/
theorem accepts (honest : Honest session (.prepared promise ::ₘ others)) :
    Honest session (.waiting promise offer ::ₘ others) := by
  obtain ⟨free, untaken⟩ := honest.sound _ (Multiset.mem_cons_self _ _)
  refine honest.tail.cons ⟨fun other sdp member => ?_, fun sdp kept => ?_⟩ nofun
  · refine absurd ?_ (untaken other sdp)
    exact Multiset.mem_cons_of_mem ((Multiset.mem_cons.mp member).resolve_left nofun)
  · cases free.symm.trans kept

/-- A call finds its promise fulfilled. -/
theorem readies (honest : Honest session (.waiting promise offer ::ₘ others))
    (ready : (session.promises promise).isSome = true) :
    Honest session (.answered promise offer ::ₘ others) := by
  have sound := honest.sound _ (Multiset.mem_cons_self _ _)
  exact honest.tail.cons ⟨Option.isSome_iff_ne_none.mp ready, sound.2⟩ nofun

/-- A call reads its promise. -/
theorem reads (honest : Honest session (.answered promise offer ::ₘ others))
    (kept : session.promises promise = some (.ok sdp)) :
    Honest session (.returning offer sdp ::ₘ others) := by
  have sound := honest.sound _ (Multiset.mem_cons_self _ _)
  exact honest.tail.cons (sound.2 sdp kept) nofun

/-- A callback takes the promise of the session. -/
theorem takes (honest : Honest session (.answering offer sdp ::ₘ others))
    (found : session.answerPromise = some promise)
    (prompt : ∀ other ∈ others, ¬ Phase.Mistakes promise offer other) :
    Honest { session with answerPromise := none } (.fulfilling promise offer sdp ::ₘ others) := by
  have own : session.generated.lookup offer = some sdp :=
    honest.sound _ (Multiset.mem_cons_self _ _)
  obtain ⟨bound, free, -⟩ := honest.current promise found
  have honest := honest.tail
  have mem {other : PromiseId} {offer' : OfferId} {sdp' : Chars}
      (member : Phase.fulfilling other offer' sdp' ∈ Phase.fulfilling promise offer sdp ::ₘ
        others) :
      other = promise ∧ offer' = offer ∨ .fulfilling other offer' sdp' ∈ others := by
    rcases Multiset.mem_cons.mp member with same | later
    · obtain ⟨rfl, rfl, rfl⟩ := Phase.fulfilling.inj same
      exact .inl ⟨rfl, rfl⟩
    · exact .inr later
  refine ⟨nofun, fun other unbounded => ?_, fun other member => ?_, honest.returned⟩
  · obtain ⟨unset, untaken⟩ := honest.unused other unbounded
    refine ⟨unset, fun offer' sdp' member => ?_⟩
    rcases mem member with ⟨rfl, -⟩ | later
    · exact absurd bound (Nat.not_lt.mpr unbounded)
    · exact untaken offer' sdp' later
  · rcases Multiset.mem_cons.mp member with rfl | later
    · exact own
    · have sound := honest.sound other later
      have trusted := prompt other later
      cases other with
      | prepared other =>
          refine ⟨sound.1, fun offer' sdp' member => ?_⟩
          rcases mem member with ⟨rfl, -⟩ | later
          · exact trusted rfl
          · exact sound.2 offer' sdp' later
      | waiting other expected =>
          refine ⟨fun offer' sdp' member => ?_, sound.2⟩
          rcases mem member with ⟨rfl, rfl⟩ | later
          · by_contra mistaken
            exact trusted ⟨rfl, Ne.symm mistaken⟩
          · exact sound.1 offer' sdp' later
      | _ => exact sound

/-- A callback fulfils the promise it has taken. -/
theorem fulfils (honest : Honest session (.fulfilling promise offer sdp ::ₘ others)) :
    Honest (session.fulfil promise (.ok sdp)) others := by
  have mine : Phase.fulfilling promise offer sdp ∈ Phase.fulfilling promise offer sdp ::ₘ others :=
    Multiset.mem_cons_self _ _
  have own : session.generated.lookup offer = some sdp := honest.sound _ mine
  unfold PeerSession.fulfil
  split
  · rename_i unset
    have other {another : PromiseId} (apart : another ≠ promise) :
        Function.update session.promises promise (some (.ok sdp)) another =
          session.promises another := Function.update_of_ne apart _ _
    have tail := honest.tail
    refine ⟨fun another member => ?_, fun another bound => ?_, fun phase member => ?_,
      honest.returned⟩
    · obtain ⟨bound, free, untaken⟩ := tail.current another member
      have apart : another ≠ promise := fun same =>
        (honest.current another member).2.2 offer sdp (same ▸ mine)
      exact ⟨bound, (other apart).trans free, untaken⟩
    · obtain ⟨free, untaken⟩ := tail.unused another bound
      have apart : another ≠ promise := fun same =>
        (honest.unused another bound).2 offer sdp (same ▸ mine)
      exact ⟨(other apart).trans free, untaken⟩
    · have sound := tail.sound phase member
      have whole := honest.sound phase (Multiset.mem_cons_of_mem member)
      cases phase with
      | prepared another =>
          have apart : another ≠ promise := fun same => whole.2 offer sdp (same ▸ mine)
          exact ⟨(other apart).trans sound.1, sound.2⟩
      | waiting another expected =>
          refine ⟨sound.1, fun answer kept => ?_⟩
          by_cases same : another = promise
          · subst same
            have set : Function.update session.promises another (some (.ok sdp)) another =
                some (.ok sdp) := Function.update_self _ _ _
            cases set.symm.trans kept
            exact whole.1 offer sdp mine ▸ own
          · exact sound.2 answer ((other same).symm.trans kept)
      | answered another expected =>
          have apart : another ≠ promise := fun same => sound.1 (same ▸ unset)
          refine ⟨fun none => sound.1 ((other apart).symm.trans none), fun answer kept => ?_⟩
          exact sound.2 answer ((other apart).symm.trans kept)
      | _ => exact sound
  · exact honest.tail

/-- A callback with the answer to an accepted offer. -/
theorem called (honest : Honest session others) (new : session.generated.lookup offer = none) :
    Honest { session with generated := session.generated.insert offer sdp }
      (.answering offer sdp ::ₘ others) := by
  refine cons (honest.moved rfl (fun other answer found => ?_) le_rfl (fun _ => .inl) rfl) ?_ nofun
  · have apart : other ≠ offer := by
      rintro rfl
      cases new.symm.trans found
    exact (Finmap.lookup_insert_of_ne _ apart).trans found
  · exact Finmap.lookup_insert _

/-- A call returns the answer it has read. -/
theorem returns (honest : Honest session (.returning offer sdp ::ₘ others)) :
    Honest { session with returned := session.returned ++ [(offer, sdp)] } others := by
  have own : session.generated.lookup offer = some sdp :=
    honest.sound _ (Multiset.mem_cons_self _ _)
  obtain ⟨current, unused, sound, returned⟩ := honest.tail
  refine ⟨current, unused, fun phase member => (sound phase member).mono (fun _ _ _ => id) rfl
    fun _ _ => id, fun entry member => ?_⟩
  rcases List.mem_append.mp member with old | new
  · exact returned entry old
  · rw [List.mem_singleton.mp new]
    exact own

end Honest

/-- What a call has read is what it returns. -/
def Phase.Agrees (answer : Except String Chars) : Phase → Prop
  | .returning _ sdp => answer = .ok sdp
  | _ => True

/-- The session is done with a promise; what the call returns says nothing. -/
theorem reset_safe {phase : Phase} (idle : ∀ session others, Honest session (phase ::ₘ others) →
    Honest session others) (error : String) :
    honesty.Safe (fun phase answer => Phase.Agrees answer phase) phase
      (issue .resetPromise >>= fun _ => .ret (.error error)) := by
  rintro (session : PeerSession) others honest -
  refine ⟨trivial, fun _ after effect => ?_⟩
  cases effect
  exact ⟨(idle session others honest).reset.cons trivial nofun, trivial⟩

theorem negotiate_safe (sdp : Chars) :
    honesty.Safe (fun phase answer => Phase.Agrees answer phase) .idle (negotiate sdp) := by
  unfold negotiate
  split
  · trivial
  rintro (session : PeerSession) others honest -
  refine ⟨trivial, fun made after effect => ?_⟩
  have effect : if session.hasPc = true then _ else _ := effect
  split at effect
  · obtain ⟨rfl, rfl⟩ := effect
    refine ⟨honest.tail.prepares, ?_⟩
    generalize session.nextPromise = promise
    rintro (session : PeerSession) others honest -
    refine ⟨trivial, fun accepted after effect => ?_⟩
    rcases effect with ⟨rfl, rfl⟩ | ⟨rfl, rfl⟩
    · exact ⟨honest, reset_safe (fun _ _ => Honest.tail) _⟩
    · refine ⟨(Honest.accepts honest).aside _ _ _, ?_⟩
      generalize session.nextOffer = offer
      rintro (session : PeerSession) others honest -
      refine ⟨trivial, fun ready after effect => ?_⟩
      obtain ⟨found, rfl⟩ := effect
      cases ready with
      | false =>
          refine ⟨(Honest.tail honest).cons trivial nofun, ?_⟩
          exact reset_safe (fun _ _ => Honest.tail) _
      | true =>
          refine ⟨honest.readies found.symm, ?_⟩
          rintro (session : PeerSession) others honest -
          refine ⟨trivial, fun outcome after effect => ?_⟩
          obtain ⟨kept, rfl⟩ := effect
          cases outcome with
          | error exception => exact ⟨(Honest.tail honest).cons trivial nofun, trivial⟩
          | ok answer => exact ⟨honest.reads kept, rfl⟩
  · obtain ⟨rfl, rfl⟩ := effect
    exact ⟨honest, trivial⟩

theorem applyRemoteOffer_safe (sdp : Chars) :
    honesty.Safe (fun phase answer => Phase.Agrees answer phase) .idle (applyRemoteOffer sdp) := by
  rintro (session : PeerSession) others honest -
  refine ⟨trivial, fun busy after effect => ?_⟩
  obtain ⟨-, rfl⟩ := effect
  refine ⟨Honest.aside honest _ _ _, ?_⟩
  cases busy with
  | true => trivial
  | false =>
      refine Outline.Safe.bind (Outline.safe_ret.mpr ?_)
      refine Outline.Safe.bind ((negotiate_safe sdp).mono fun phase answer agrees => ?_)
      rintro (session : PeerSession) others honest -
      refine ⟨trivial, fun _ after effect => ?_⟩
      cases effect
      exact ⟨Honest.aside honest _ _ _, agrees⟩

theorem onLocalDescription_safe (offer : OfferId) (sdp : Chars) :
    honesty.Safe (fun phase _ => phase = Phase.idle) (.answering offer sdp)
      (onLocalDescription ⟨.answer, sdp⟩) := by
  rintro (session : PeerSession) others honest prompt
  refine ⟨trivial, fun taken after effect => ?_⟩
  obtain ⟨found, rfl⟩ := effect
  cases taken with
  | none => exact ⟨(Honest.tail honest).reset.cons trivial nofun, rfl⟩
  | some promise =>
      refine ⟨honest.takes found.symm (prompt promise found.symm), ?_⟩
      rintro (session : PeerSession) others honest -
      refine ⟨trivial, fun _ after effect => ?_⟩
      cases effect
      exact ⟨(Honest.fulfils honest).cons trivial nofun, rfl⟩

theorem honesty_stable : honesty.Stable where
  start := by
    rintro (session : PeerSession) others phase program after started honest
    rcases started with ⟨sdp, rfl, rfl, rfl⟩ | ⟨offer, sdp, -, new, rfl, rfl, rfl⟩ | ⟨rfl, rfl, rfl⟩
    · refine ⟨Honest.cons honest trivial nofun, Outline.Safe.bind ?_⟩
      refine (applyRemoteOffer_safe sdp).mono fun phase answer agrees => ?_
      rintro (session : PeerSession) others honest
      cases phase with
      | returning offer sdp =>
          cases (show answer = .ok sdp from agrees)
          exact Honest.returns honest
      | _ => exact Honest.tail honest
    · refine ⟨Honest.called honest new, Outline.Safe.mapConst ?_⟩
      refine (onLocalDescription_safe offer sdp).mono ?_
      rintro phase - rfl (session : PeerSession) others honest
      exact Honest.tail honest
    · refine ⟨Honest.cons honest trivial nofun, ?_⟩
      rintro (session : PeerSession) others honest -
      refine ⟨trivial, fun _ after effect => ?_⟩
      cases effect
      refine ⟨Honest.reset (Honest.aside honest false _ _), ?_⟩
      rintro (session : PeerSession) others honest
      exact Honest.tail honest
  discard _ _ _ never := never.elim
  environment _ _ _ never := never.elim

/-- **An answer belongs to its offer**, if no callback takes the promise of a call that still
waits for the answer to another offer. -/
theorem generated_of_returned {pool : negotiations.Pool}
    (run : Reaches Prompt ⟨PeerSession.initial, []⟩ pool) {offer : OfferId} {sdp : Chars}
    (returned : (offer, sdp) ∈ pool.state.returned) :
    pool.state.generated.lookup offer = some sdp := by
  have start : Honest PeerSession.initial 0 :=
    ⟨nofun, fun _ _ => ⟨rfl, fun _ _ => Multiset.notMem_zero _⟩,
      fun _ member => absurd member (Multiset.notMem_zero _), nofun⟩
  have opened : honesty.Holds ⟨PeerSession.initial, []⟩ := .of_quiescent start
  exact (opened.reaches honesty_stable run).1.returned _ returned

end

/-! ## A late callback -/

instance : ∀ session phase op others, Decidable (Prompt session phase op others) := by
  intro (session : PeerSession) (phase : Phase) op (others : Multiset Phase)
  unfold Prompt
  split <;> infer_instance

/-- One outcome of each step; the hint says whether the connection accepts an offer. -/
def sample (hint : Bool) : (op : Op) → PeerSession → Option (op.Reply × PeerSession)
  | .exchangeInProgress, session =>
      some (session.negotiationInProgress, { session with negotiationInProgress := true })
  | .storeInProgress, session => some ((), { session with negotiationInProgress := false })
  | .makePromise, session =>
      if session.hasPc then
        some (some session.nextPromise, { session with
          answerPromise := some session.nextPromise
          nextPromise := session.nextPromise + 1 })
      else some (none, session)
  | .setRemoteDescription _, session =>
      if hint then some (some session.nextOffer,
        { session with nextOffer := session.nextOffer + 1 })
      else some (none, session)
  | .resetPromise, session => some ((), { session with answerPromise := none })
  | .waitFor promise, session => some ((session.promises promise).isSome, session)
  | .get promise, session => (session.promises promise).map fun outcome => (outcome, session)
  | .takePromise, session => some (session.answerPromise, { session with answerPromise := none })
  | .fulfil promise outcome, session => some ((), session.fulfil promise outcome)
  | .shutdown, session => some ((), { session with hasPc := false, answerPromise := none })

def negotiationSampler : negotiations.Sampler Bool where
  sample := sample
  sound := by
    intro hint op (session : PeerSession) reply after sampled
    cases op with
    | makePromise =>
        obtain ⟨hasPc, _⟩ := session
        cases hasPc <;> cases sampled <;> exact ⟨rfl, rfl⟩
    | setRemoteDescription sdp =>
        cases hint with
        | true =>
            cases sampled
            exact .inr ⟨rfl, rfl⟩
        | false =>
            cases sampled
            exact .inl ⟨rfl, rfl⟩
    | get promise =>
        obtain ⟨outcome, kept, same⟩ := Option.map_eq_some_iff.mp sampled
        cases same
        exact ⟨kept, rfl⟩
    | _ =>
        cases sampled
        first
          | rfl
          | exact ⟨rfl, rfl⟩

/-- An offer with two fixed slots. -/
def twoSlots : Chars := "a=mid:audio_main\r\na=mid:video_camera\r\n".toList

/-- Two calls with offers. -/
def twoCalls : List negotiations.Thread :=
  List.replicate 2 ⟨.idle, applyRemoteOffer twoSlots >>= fun answer => .ret (.applied answer)⟩

theorem reaches_twoCalls {guard : negotiations.Guard} :
    Reaches guard ⟨PeerSession.initial, []⟩ ⟨PeerSession.initial, twoCalls⟩ := by
  refine reaches_start fun thread member others => ?_
  cases List.eq_of_mem_replicate member
  exact .inl ⟨twoSlots, rfl, rfl, rfl⟩

/-- The answer to the first offer arrives. -/
def arrive (pool : negotiations.Pool) : Option negotiations.Pool :=
  if 0 < (show PeerSession from pool.state).nextOffer ∧
      (show PeerSession from pool.state).generated.lookup 0 = none then
    some ⟨{ (show PeerSession from pool.state) with
        generated := (show PeerSession from pool.state).generated.insert 0 "first".toList },
      ⟨.answering 0 "first".toList, Functor.mapConst .handled
        (onLocalDescription ⟨.answer, "first".toList⟩)⟩ :: pool.threads⟩
  else none

theorem arrive_step {guard : negotiations.Guard} (pool pool' : negotiations.Pool)
    (arrived : arrive pool = some pool') : Step guard pool pool' := by
  obtain ⟨⟨known, new⟩, same⟩ := Option.ite_none_right_eq_some.mp arrived
  cases same
  exact .start (.inr (.inl ⟨0, "first".toList, known, new, rfl, rfl, rfl⟩))

/-- The first call gets its answer in time. -/
theorem generated_of_returned_first : ∃ pool : negotiations.Pool,
    Reaches Prompt ⟨PeerSession.initial, []⟩ pool ∧
      (0, "first".toList) ∈ pool.state.returned ∧
      pool.state.generated.lookup 0 = some "first".toList := by
  have replayed : (((negotiationSampler.replay Prompt (List.replicate 3 (0, true))
      ⟨PeerSession.initial, twoCalls⟩).bind arrive).bind (negotiationSampler.replay Prompt
        (List.replicate 7 (0, true)))).any (fun pool =>
          (0, "first".toList) ∈ (show PeerSession from pool.state).returned) = true := by
    decide +kernel
  obtain ⟨pool, run, passed⟩ := Sampler.exists_of_replay_launch arrive_step replayed
  have run := reaches_twoCalls.trans run
  have returned := of_decide_eq_true passed
  exact ⟨pool, run, returned, generated_of_returned run returned⟩

/-- **The second call returns the answer to the first offer**: the first has given up, and
its answer arrives while the second waits. -/
theorem late_answer : ∃ pool : negotiations.Pool,
    Reaches unguarded ⟨PeerSession.initial, []⟩ pool ∧
      (1, "first".toList) ∈ pool.state.returned ∧
      pool.state.generated.lookup 1 ≠ some "first".toList := by
  have replayed : (((negotiationSampler.replay unguarded (List.replicate 10 (0, true))
      ⟨PeerSession.initial, twoCalls⟩).bind arrive).bind (negotiationSampler.replay unguarded
        (List.replicate 7 (0, true)))).any (fun pool =>
          (1, "first".toList) ∈ (show PeerSession from pool.state).returned ∧
          (show PeerSession from pool.state).generated.lookup 1 = none) = true := by
    decide +kernel
  obtain ⟨pool, run, passed⟩ := Sampler.exists_of_replay_launch arrive_step replayed
  obtain ⟨returned, none⟩ := of_decide_eq_true passed
  refine ⟨pool, reaches_twoCalls.trans run, returned, fun some => ?_⟩
  cases none.symm.trans some

end Callifornia.Sfu.Negotiation
